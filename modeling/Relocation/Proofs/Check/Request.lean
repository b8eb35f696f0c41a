import Relocation.Check.Move
import Relocation.Proofs.Check.Accounting
import Relocation.Proofs.Project.Built
import Relocation.Proofs.Steps
set_option autoImplicit false

/-!
What the check of a whole request consists of: one pass over the declarations that it names, then
one for each file, each with the usages of what the pass looks at. A fact about what has been
found and left so far holds at the end if every pass keeps it.

In a project that lists its declarations where they lie, and none too deep, all that is looked at
moves, and all usages that are collected are references to what moves.
-/

namespace Relocation

namespace Project

variable (p : Project)

/-- Declarations are listed where they lie, and none lies too deep to be found. -/
structure Regular : Prop where
  lists : p.ListsChildren
  nested : p.NestedBelow (chainLimit - 1)

/-- A usage as it is collected for a move: a reference to a declaration that moves, told apart by
where the reference lies. -/
structure Collected (moving : List Element) (usage : Usage) : Prop where
  resolved : (p.reference usage.reference).target = some usage.referenced
  moves : p.isInside moving (.decl usage.referenced) = true
  side : usage.isInternal = p.isInside moving (.reference usage.reference)

def usagesOfDecls (usages : List Usage) (elements : List Element) : List Usage :=
  usages.filter fun usage => (elements.filterMap Element.asDecl?).any fun decl =>
    p.isAncestor (.decl decl) (.decl usage.referenced)

def usagesOfFile (usages : List Usage) (file : FileId) : List Usage :=
  usages.filter fun usage => p.fileOf? usage.referenced == some file

variable {p}

theorem Built.regular {count : Nat} (built : p.Built) (nested : p.NestedBelow (count + 1))
    (short : count + 1 < chainLimit) : p.Regular where
  lists := built.listsChildren
  nested := by
    intro id _
    exact nested.isSome_fileWithin (Nat.le_sub_one_of_lt short) id

namespace Regular

variable (regular : p.Regular)
include regular

theorem isAncestor_iff {outer inner : Element} :
    p.isAncestor outer inner = true ↔ p.LiesIn inner outer :=
  Project.isAncestor_iff regular.nested (by decide)

theorem isInside_iff {elements : List Element} {element : Element} :
    p.isInside elements element = true ↔ ∃ outer ∈ elements, p.LiesIn element outer :=
  Project.isInside_iff regular.nested (by decide)

theorem isInside_of_liesIn {elements : List Element} {inner outer : Element}
    (inside : p.LiesIn inner outer) (moves : p.isInside elements outer = true) :
    p.isInside elements inner = true :=
  inside.isInside regular.nested (by decide) moves

theorem fileOf?_of_liesIn {id : DeclId} {file : FileId}
    (inside : p.LiesIn (.decl id) (.file file)) : p.fileOf? id = some file :=
  inside.fileOf?_eq regular.nested (by decide)

end Regular

end Project

namespace Pass

def ofNamed (project : Project) (services : Services) (options : CheckOptions) (target : Target)
    (moving : List Element) : Pass :=
  { project, services, options, target, elements := moving.filterMap Element.asDecl?, moving }

/-- A pass of a move that asks the project itself. -/
structure OfMove (pass : Pass) : Prop where
  services : pass.services = pass.project.services
  moving : ∀ id ∈ pass.elements, pass.isMoving (.decl id) = true

end Pass

theorem Element.mem_filterMap_asDecl? {elements : List Element} {id : DeclId} :
    id ∈ elements.filterMap Element.asDecl? ↔ .decl id ∈ elements := by
  rw [List.mem_filterMap]
  constructor
  · rintro ⟨element, listed, isDecl⟩
    cases element with
    | decl other =>
      cases isDecl
      exact listed
    | reference other => cases isDecl
    | file other => cases isDecl
  · exact fun listed => ⟨_, listed, rfl⟩

theorem Element.filterMap_asDecl?_map (ids : List DeclId) :
    (ids.map Element.decl).filterMap Element.asDecl? = ids := by
  rw [List.filterMap_map]
  exact List.filterMap_some

theorem mem_filesIn {elements : List Element} {file : FileId} :
    file ∈ filesIn elements ↔ .file file ∈ elements := by
  rw [filesIn, List.mem_filterMap]
  constructor
  · rintro ⟨element, listed, isFile⟩
    cases element with
    | file other =>
      cases isFile
      exact listed
    | reference other => cases isFile
    | decl other => cases isFile
  · exact fun listed => ⟨_, listed, rfl⟩

namespace Project.Regular

variable {p : Project} (regular : p.Regular) {elements : List Element} {usage : Usage}
include regular

theorem collected_of_mem (found : usage ∈ p.collectUsages p.services elements) :
    p.Collected elements usage := by
  obtain ⟨referenced, moves, found⟩ := List.mem_flatMap.mp found
  obtain ⟨reference, referring, rfl⟩ := List.mem_map.mp found
  exact {
    resolved := (p.mem_referencesTo referring).2
    moves := regular.isInside_iff.mpr (regular.lists.liesIn_of_mem_declarationsIn moves)
    side := rfl }

theorem collected_of_mem_filter (keep : Usage → Bool) :
    ∀ usage ∈ (p.collectUsages p.services elements).filter keep, p.Collected elements usage := by
  intro usage kept
  exact regular.collected_of_mem (List.mem_filter.mp kept).1

theorem mem_usages_of_mem (found : usage ∈ p.collectUsages p.services elements) :
    usage ∈ p.usagesOfDecls (p.collectUsages p.services elements) elements ∨
      ∃ file ∈ filesIn elements,
        usage ∈ p.usagesOfFile (p.collectUsages p.services elements) file := by
  obtain ⟨referenced, moves, fromDecl⟩ := List.mem_flatMap.mp found
  obtain ⟨reference, -, rfl⟩ := List.mem_map.mp fromDecl
  obtain ⟨element, listed, inside⟩ := regular.lists.liesIn_of_mem_declarationsIn moves
  cases element with
  | decl root =>
    apply Or.inl
    refine List.mem_filter.mpr ⟨found, List.any_eq_true.mpr ⟨root, ?_, ?_⟩⟩
    · exact Element.mem_filterMap_asDecl?.mpr listed
    · exact regular.isAncestor_iff.mpr inside
  | file file =>
    apply Or.inr
    refine ⟨file, mem_filesIn.mpr listed, List.mem_filter.mpr ⟨found, ?_⟩⟩
    exact beq_iff_eq.mpr (regular.fileOf?_of_liesIn inside)
  | reference id => cases inside.of_reference

end Project.Regular

section Passes

variable {p : Project} {options : CheckOptions} {target : Target} {elements : List Element}

theorem Pass.ofMove_ofNamed : (Pass.ofNamed p p.services options target elements).OfMove where
  services := rfl
  moving := by
    intro id listed
    exact Project.isInside_of_mem (Element.mem_filterMap_asDecl?.mp listed)

theorem Pass.ofMove_ofFile (regular : p.Regular) {file : FileId}
    (listed : file ∈ filesIn elements) :
    (Pass.ofFile p p.services options target elements file).OfMove where
  services := rfl
  moving := by
    intro id declared
    apply regular.isInside_of_liesIn (regular.lists.liesIn_of_mem_topLevel declared)
    exact Project.isInside_of_mem (mem_filesIn.mp listed)

/-- The passes of a move: one over all declarations that it names, if there are any, and one over
each file. -/
def Project.passesOf (p : Project) (services : Services) (options : CheckOptions)
    (target : Target) (elements : List Element) : List Pass :=
  (if elements.filterMap Element.asDecl? = [] then []
    else [Pass.ofNamed p services options target elements]) ++
  (filesIn elements).map (Pass.ofFile p services options target elements)

theorem checkFile_eq_ok {services : Services} {file : FileId} {usages : List Usage}
    {report : Report} {result : Report × Option (List Usage)}
    (returned : checkFile p services options target elements file usages report = .ok result) :
    (p.topLevel file = [] ∧ result = (report, none)) ∨
      ∃ after, (Pass.ofFile p services options target elements file).check
          (.ofUsages usages report) = .ok after ∧
        result.1 = after.report ∧
        (after.external = (CheckState.ofUsages usages report).external →
          after.internal = (CheckState.ofUsages usages report).internal → result.2 = none) := by
  unfold checkFile at returned
  dsimp only at returned
  split at returned
  next empty =>
    cases returned
    exact Or.inl ⟨List.isEmpty_iff.mp empty, rfl⟩
  · cases checked : (Pass.ofFile p services options target elements file).check
        (.ofUsages usages report) with
    | error fault =>
      unfold Pass.ofFile at checked
      rw [checked] at returned
      cases returned
    | ok after =>
      unfold Pass.ofFile at checked
      rw [checked] at returned
      cases returned
      refine Or.inr ⟨after, rfl, rfl, fun external internal => ?_⟩
      simp [external, internal]

theorem checkFile_returns_iff {services : Services} {file : FileId} {usages : List Usage}
    {report : Report} :
    (∃ result, checkFile p services options target elements file usages report = .ok result) ↔
      ∃ findings, (Pass.ofFile p services options target elements file).hierarchyFindings =
        .ok findings := by
  constructor
  · rintro ⟨result, returned⟩
    rcases checkFile_eq_ok returned with ⟨empty, -⟩ | ⟨after, checked, -⟩
    · exact ⟨_, Pass.hierarchyFindings_of_nil _ empty⟩
    · exact (Pass.check_returns_iff _ _).mp ⟨after, checked⟩
  · intro returns
    obtain ⟨after, checked⟩ := (Pass.check_returns_iff _ _).mpr returns
    unfold checkFile
    dsimp only
    split
    · exact ⟨_, rfl⟩
    · exact ⟨_, bind_eq_ok.mpr ⟨after, checked, rfl⟩⟩

end Passes

/-- Facts about the report and the usages left, in view of the files that have been checked. -/
theorem Project.checkElements_induction {p : Project} {services : Services}
    {options : CheckOptions} {elements : List Element} {target : Target} {result : CheckResult}
    (motive : List FileId → Report → List Usage → Prop)
    (unnamed : elements.filterMap Element.asDecl? = [] → motive [] {} [])
    (named : elements.filterMap Element.asDecl? ≠ [] → ∀ after,
      (Pass.ofNamed p services options target elements).check
          (.ofUsages (p.usagesOfDecls (p.collectUsages services elements) elements) {}) =
        .ok after → motive [] after.report after.usages)
    (file : ∀ checked, ∀ file ∈ filesIn elements, ∀ report remaining outcome,
      motive checked report remaining →
      checkFile p services options target elements file
          (p.usagesOfFile (p.collectUsages services elements) file) report = .ok outcome →
      motive (checked ++ [file]) outcome.1
        (remaining ++
          outcome.2.getD (p.usagesOfFile (p.collectUsages services elements) file)))
    (returned : p.checkElements services options elements target = .ok result) :
    motive (filesIn elements) result.report result.usagesRemaining := by
  have files : ∀ first : Report × List Usage, motive [] first.1 first.2 → ∀ last,
      (filesIn elements).foldlM (m := Except LoneHierarchy)
        (fun state file =>
          checkFile p services options target elements file
              (p.usagesOfFile (p.collectUsages services elements) file) state.1 >>= fun outcome =>
            pure (outcome.1, state.2 ++
              outcome.2.getD (p.usagesOfFile (p.collectUsages services elements) file)))
        first = .ok last → motive (filesIn elements) last.1 last.2 := by
    intro first start last folded
    refine foldlM_induction (fun checked state => motive checked state.1 state.2) start ?_ folded
    intro checked listed member before after holds stepped
    obtain ⟨outcome, ran, done⟩ := bind_eq_ok.mp stepped
    cases done
    exact file checked listed member before.1 before.2 outcome holds ran
  unfold checkElements at returned
  dsimp only at returned
  split at returned
  next none =>
    obtain ⟨_, begun, returned⟩ := bind_eq_ok.mp returned
    obtain ⟨last, folded, done⟩ := bind_eq_ok.mp returned
    cases begun
    cases done
    exact files _ (unnamed (List.isEmpty_iff.mp none)) last folded
  next some =>
    obtain ⟨after, checked, returned⟩ := bind_eq_ok.mp returned
    obtain ⟨_, begun, returned⟩ := bind_eq_ok.mp returned
    obtain ⟨last, folded, done⟩ := bind_eq_ok.mp returned
    cases begun
    cases done
    exact files _ (named (by simpa using some) after checked) last folded

/-- A move returns if all its passes do. -/
theorem Project.checkElements_returns_iff {p : Project} {services : Services}
    {options : CheckOptions} {elements : List Element} {target : Target} :
    (∃ result, p.checkElements services options elements target = .ok result) ↔
      ∀ pass ∈ p.passesOf services options target elements,
        ∃ findings, pass.hierarchyFindings = .ok findings := by
  unfold passesOf
  generalize first : (if elements.filterMap Element.asDecl? = [] then []
    else [Pass.ofNamed p services options target elements]) = passes
  constructor
  · rintro ⟨result, returned⟩
    refine checkElements_induction (fun checked _ _ => ∀ pass ∈ passes ++
      checked.map (Pass.ofFile p services options target elements),
        ∃ findings, pass.hierarchyFindings = .ok findings) ?_ ?_ ?_ returned
    · intro unnamed
      simp [← first, unnamed]
    · intro named after checked
      simpa [← first, named] using Pass.check_returns_iff _ _ |>.mp ⟨after, checked⟩
    · intro earlier file _ report _ outcome returns ran
      simp only [List.map_append, List.map_cons, List.map_nil, ← List.append_assoc]
      refine List.forall_mem_append.mpr ⟨returns, List.forall_mem_singleton.mpr ?_⟩
      exact checkFile_returns_iff.mp ⟨outcome, ran⟩
  · intro returns
    obtain ⟨fromNamed, fromFiles⟩ := List.forall_mem_append.mp returns
    have files : ∀ state : Report × List Usage, ∃ last,
        (filesIn elements).foldlM (m := Except LoneHierarchy)
          (fun state file =>
            checkFile p services options target elements file
                (p.usagesOfFile (p.collectUsages services elements) file) state.1 >>= fun outcome =>
              pure (outcome.1, state.2 ++
                outcome.2.getD (p.usagesOfFile (p.collectUsages services elements) file)))
          state = .ok last := by
      refine exists_foldlM_eq_ok ?_
      intro file listed before
      obtain ⟨outcome, ran⟩ := checkFile_returns_iff.mpr
        (fromFiles _ (List.mem_map_of_mem listed))
      exact ⟨_, bind_eq_ok.mpr ⟨outcome, ran, rfl⟩⟩
    unfold checkElements
    dsimp only
    split
    · obtain ⟨last, folded⟩ := files ({}, [])
      exact ⟨_, bind_eq_ok.mpr ⟨_, rfl, bind_eq_ok.mpr ⟨last, folded, rfl⟩⟩⟩
    next some =>
      have named : elements.filterMap Element.asDecl? ≠ [] := by simpa using some
      have ran : ∃ findings, (Pass.ofNamed p services options target elements).hierarchyFindings =
          .ok findings := fromNamed _ (by simp [← first, named])
      obtain ⟨after, checked⟩ := (Pass.check_returns_iff _ _).mpr ran
      obtain ⟨last, folded⟩ := files (after.report, after.usages)
      exact ⟨_, bind_eq_ok.mpr ⟨after, checked, bind_eq_ok.mpr ⟨_, rfl,
        bind_eq_ok.mpr ⟨last, folded, rfl⟩⟩⟩⟩

theorem Project.checkMove_eq_ok_iff {p : Project} {services : Services} {options : CheckOptions}
    {request : Manifest.MoveEntry} {result : CheckResult} :
    p.checkMove services options request = .ok result ↔
      ∃ elements target, request.resolve p = .ok (elements, target) ∧
        p.checkElements services options elements target = .ok result := by
  have mapped {Fault Other Answer : Type} (rename : Fault → Other)
      (outcome : Except Fault Answer) (answer : Answer) :
      outcome.mapError rename = .ok answer ↔ outcome = .ok answer := by
    cases outcome <;> simp [Except.mapError]
  unfold checkMove
  simp only [bind_eq_ok, mapped, Prod.exists]

end Relocation
