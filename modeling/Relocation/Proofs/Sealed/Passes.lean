import Mathlib
import Relocation.Project.Build
import Relocation.Proofs.Check.Request
import Relocation.Proofs.Sealed.Limit
set_option autoImplicit false

/-!
Sealed hierarchies in the report of a move.

A move is checked in passes, one over the declarations that it names and one over each file, and
every pass begins with nothing seen. So a hierarchy is reported once in a pass, at the class where
the pass enters it, and as often in all as there are passes that find it torn.
-/

namespace Relocation

namespace Pass

theorem not_findsTorn_of_nil (pass : Pass) (nothing : pass.elements = []) (finding : Finding) :
    ¬ pass.FindsTorn finding := by
  rintro ⟨findings, returned, member⟩
  rw [pass.hierarchyFindings_of_nil nothing] at returned
  cases returned
  cases member

end Pass

namespace Project

variable {p : Project} {options : CheckOptions} {target : Target} {elements : List Element}

theorem of_mem_passesOf {services : Services} {pass : Pass}
    (member : pass ∈ p.passesOf services options target elements) :
    pass.project = p ∧ pass.services = services ∧ pass.options = options := by
  rcases List.mem_append.mp member with named | file
  · split at named
    · cases named
    · rw [List.mem_singleton.mp named]
      exact ⟨rfl, rfl, rfl⟩
  · obtain ⟨_, -, rfl⟩ := List.mem_map.mp file
    exact ⟨rfl, rfl, rfl⟩

theorem mem_findings_of_checkFile_torn {services : Services} {file : FileId}
    {usages : List Usage} {report : Report} {result : Report × Option (List Usage)}
    (returned : checkFile p services options target elements file usages report = .ok result)
    {finding : Finding} (code : 1201 ≤ finding.2.code ∧ finding.2.code ≤ 1204) :
    finding ∈ result.1.findings ↔ finding ∈ report.findings ∨
      (Pass.ofFile p services options target elements file).FindsTorn finding := by
  rcases checkFile_eq_ok returned with ⟨empty, rfl⟩ | ⟨after, checked, same, -⟩
  · have nothing := Pass.not_findsTorn_of_nil
      (.ofFile p services options target elements file) empty finding
    simp [nothing]
  · rw [same]
    exact Pass.mem_findings_of_check_torn checked code

section Run

variable {services : Services} {result : CheckResult}
  (returned : p.checkElements services options elements target = .ok result)
include returned

theorem tidy_report : result.report.Tidy := by
  refine checkElements_induction (fun _ report _ => report.Tidy) ?_ ?_ ?_ returned
  · exact fun _ => Report.tidy_empty
  · intro _ after checked
    obtain ⟨later, -, rfl⟩ := (Pass.check_eq_ok_iff _ _ _).mp checked
    exact Report.tidy_empty.pushAll _
  · intro _ _ _ report _ outcome tidy ran
    rcases checkFile_eq_ok ran with ⟨-, rfl⟩ | ⟨after, checked, same, -⟩
    · exact tidy
    · obtain ⟨later, -, rfl⟩ := (Pass.check_eq_ok_iff _ _ _).mp checked
      rw [same]
      exact tidy.pushAll _

/-- What the passes of a move find about sealed hierarchies is what its report says of them. -/
theorem mem_findings_torn_iff {finding : Finding}
    (code : 1201 ≤ finding.2.code ∧ finding.2.code ≤ 1204) :
    finding ∈ result.report.findings ↔
      ∃ pass ∈ p.passesOf services options target elements, pass.FindsTorn finding := by
  unfold passesOf
  generalize first : (if elements.filterMap Element.asDecl? = [] then []
    else [Pass.ofNamed p services options target elements]) = passes
  refine checkElements_induction (fun checked report _ => finding ∈ report.findings ↔
    ∃ pass ∈ passes ++ checked.map (Pass.ofFile p services options target elements),
      pass.FindsTorn finding) ?_ ?_ ?_ returned
  · intro unnamed
    simp [← first, unnamed, Report.findings]
  · intro named after checked
    rw [Pass.mem_findings_of_check_torn checked code]
    simp [← first, named, CheckState.ofUsages, Report.findings]
  · intro earlier file _ report _ outcome found ran
    rw [mem_findings_of_checkFile_torn ran code, found]
    simp only [List.map_append, List.map_cons, List.map_nil, ← List.append_assoc]
    generalize passes ++ earlier.map _ = before
    simp [or_and_right, exists_or]

end Run

theorem length_le_of_findsTorn {passes : List Pass} {listed : List Finding}
    (distinct : listed.Nodup)
    (found : ∀ finding ∈ listed, ∃ pass ∈ passes, pass.FindsTorn finding)
    (once : ∀ pass ∈ passes, ∀ one ∈ listed, ∀ other ∈ listed,
      pass.FindsTorn one → pass.FindsTorn other → one = other) :
    listed.length ≤ passes.length := by
  choose source inside finds using fun finding : { finding // finding ∈ listed } =>
    found finding.1 finding.2
  have injective : Function.Injective source := by
    intro one other same
    exact Subtype.ext (once (source one) (inside one) one.1 one.2 other.1 other.2 (finds one)
      (same ▸ finds other))
  have contained : listed.attach.map source ⊆ passes := by
    intro pass member
    obtain ⟨finding, -, rfl⟩ := List.mem_map.mp member
    exact inside finding
  calc
    listed.length = (listed.attach.map source).length := by simp
    _ ≤ passes.length := ((List.nodup_attach.mpr distinct).map injective).length_le_of_subset
        contained

/-- Under the relaxed rule every pass that finds a sealed hierarchy torn reports it once, at the
class where it enters the hierarchy, and the report of a move has nothing else about it. -/
structure ReportsOncePerPass (p : Project) (passes : List Pass) (report : Report) : Prop where
  source : ∀ finding, finding ∈ report.torn ↔ ∃ pass ∈ passes, pass.FindsTorn finding
  entered : ∀ id, p.Walkable id → ∀ pass ∈ passes, ∀ finding, pass.FindsTorn finding →
    p.IsAbout id finding →
      ∃ entry, p.Enters pass.elements id entry ∧ finding.1 = .decl entry
  once : ∀ id, p.Walkable id → ∀ pass ∈ passes, ∀ one other, pass.FindsTorn one →
    pass.FindsTorn other → p.IsAbout id one → p.IsAbout id other → one = other
  bounded : ∀ id, p.Walkable id → ∀ listed : List Finding, listed.Sublist report.torn →
    (∀ finding ∈ listed, p.IsAbout id finding) → listed.length ≤ passes.length

theorem reportsOncePerPass
    (relaxed : options.language.sealedInheritorsInSamePackage = true) {result : CheckResult}
    (returned : p.checkElements p.services options elements target = .ok result) :
    ReportsOncePerPass p (p.passesOf p.services options target elements) result.report := by
  have source : ∀ finding, finding ∈ result.report.torn ↔
      ∃ pass ∈ p.passesOf p.services options target elements, pass.FindsTorn finding := by
    intro finding
    rw [Report.mem_torn]
    constructor
    · rintro ⟨listed, code⟩
      exact (mem_findings_torn_iff returned (by omega)).mp listed
    · rintro ⟨pass, member, found⟩
      obtain ⟨findings, ran, inFindings⟩ := found
      have code := Pass.code_of_mem_findings ((of_mem_passesOf member).2.2 ▸ relaxed) ran inFindings
      exact ⟨(mem_findings_torn_iff returned (by omega)).mpr ⟨pass, member, findings, ran, inFindings⟩,
        code⟩
  have once : ∀ id, p.Walkable id → ∀ pass ∈ p.passesOf p.services options target elements,
      ∀ one other, pass.FindsTorn one → pass.FindsTorn other → p.IsAbout id one →
        p.IsAbout id other → one = other := by
    rintro id walkable pass member one other ⟨findings, ran, oneMember⟩ ⟨_, again, otherMember⟩
      oneAbout otherAbout
    obtain ⟨rfl, search, rfl⟩ := of_mem_passesOf member
    rw [ran, Except.ok.injEq] at again
    exact Pass.findings_about_unique search walkable relaxed ran oneMember
      (again ▸ otherMember) oneAbout otherAbout
  refine ⟨source, ?_, once, ?_⟩
  · rintro id walkable pass member finding ⟨findings, ran, listed⟩ about
    obtain ⟨rfl, search, rfl⟩ := of_mem_passesOf member
    obtain ⟨before, entry, entered, -, all⟩ :=
      Pass.findings_about search walkable relaxed ran listed about
    exact ⟨entry, entered, (pass.mem_startFindings.mp (all finding listed about)).1⟩
  · intro id walkable listed sublist about
    have distinct : listed.Nodup :=
      ((tidy_report returned).nodup_findings.filter _).sublist sublist
    refine length_le_of_findsTorn distinct ?_ ?_
    · exact fun finding member => (source finding).mp (sublist.subset member)
    · exact fun pass inside one oneMember other otherMember oneFound otherFound =>
        once id walkable pass inside one other oneFound otherFound (about one oneMember)
          (about other otherMember)

theorem hierarchies_reported_once_per_pass {request : Manifest.MoveEntry}
    (relaxed : options.language.sealedInheritorsInSamePackage = true) {result : CheckResult}
    (returned : p.checkMove p.services options request = .ok result) :
    ∃ elements target, request.resolve p = .ok (elements, target) ∧
      ReportsOncePerPass p (p.passesOf p.services options target elements) result.report := by
  obtain ⟨elements, target, resolved, checked⟩ := checkMove_eq_ok_iff.mp returned
  exact ⟨elements, target, resolved, reportsOncePerPass relaxed checked⟩

variable (p options) in
/-- A move returns with findings about two classes of one hierarchy. -/
def ReportedTwice (request : Manifest.MoveEntry) (one other : DeclId) : Prop :=
  one ≠ other ∧ p.SameHierarchy one other ∧
    ∃ result, p.checkMove p.services options request = .ok result ∧
      (∃ finding ∈ result.report.torn, finding.1 = .decl one) ∧
      ∃ finding ∈ result.report.torn, finding.1 = .decl other

theorem reportedTwice_of_findsTorn {request : Manifest.MoveEntry} {passes : List Pass}
    {one other : DeclId} (relaxed : options.language.sealedInheritorsInSamePackage = true)
    (resolved : request.resolve p = .ok (elements, target))
    (all : p.passesOf p.services options target elements = passes)
    (torn : ∀ pass ∈ passes, ∃ finding, pass.FindsTorn finding)
    (ne : one ≠ other) (same : p.SameHierarchy one other)
    (oneFound : ∃ pass ∈ passes, ∃ finding, pass.FindsTorn finding ∧ finding.1 = .decl one)
    (otherFound : ∃ pass ∈ passes, ∃ finding, pass.FindsTorn finding ∧ finding.1 = .decl other) :
    p.ReportedTwice options request one other := by
  subst all
  have returns : ∀ pass ∈ p.passesOf p.services options target elements,
      ∃ findings, pass.hierarchyFindings = .ok findings := by
    intro pass member
    obtain ⟨_, findings, returned, -⟩ := torn pass member
    exact ⟨findings, returned⟩
  obtain ⟨result, returned⟩ := checkElements_returns_iff.mpr returns
  have listed {id : DeclId} (found : ∃ pass ∈ p.passesOf p.services options target elements,
      ∃ finding, pass.FindsTorn finding ∧ finding.1 = .decl id) :
      ∃ finding ∈ result.report.torn, finding.1 = .decl id := by
    obtain ⟨pass, member, finding, finds, key⟩ := found
    exact ⟨finding, ((reportsOncePerPass relaxed returned).source finding).mpr ⟨pass, member, finds⟩,
      key⟩
  exact ⟨ne, same, result, checkMove_eq_ok_iff.mpr ⟨elements, target, resolved, returned⟩,
    listed oneFound, listed otherFound⟩

/-- A sealed shape, a circle and a square, each in a file of its own. -/
def scattered : Project :=
  let p := ({} : Project).addModule "core" .jvm
  let p := p.addDirectory "a" (.module ⟨0⟩ false) ⟨"a"⟩
  let p := p.addDirectory "b" (.module ⟨0⟩ false) ⟨"b"⟩
  let p := ((p.addFile ⟨0⟩ "Shape.kt" none).addFile ⟨0⟩ "Circle.kt" none).addFile ⟨0⟩ "Square.kt" none
  let p := p.addDecl
    { name := "Shape", kind := .interface, parent := .file ⟨0⟩, modality := .sealed }
  let (shape, p) := p.classType ⟨0⟩
  let p := p.addDecl
    { name := "Circle", kind := .plainClass, parent := .file ⟨1⟩, supertypes := [shape] }
  p.addDecl { name := "Square", kind := .plainClass, parent := .file ⟨2⟩, supertypes := [shape] }

theorem plainHierarchies_scattered : scattered.PlainHierarchies where
  fromSource := by decide +kernel
  oneSuperclass := by decide +kernel
  sealedKind := by decide +kernel
  irreflexive := by decide +kernel
  limited := length_le_of_size_le (by decide +kernel)

def moveTwoFiles : Manifest.MoveEntry where
  files := ["a/Shape.kt", "a/Circle.kt"]
  target := .directory "b" none

def scatteredPass (file : FileId) : Pass :=
  .ofFile scattered scattered.services {} (.directory ⟨1⟩ ⟨"b"⟩) [.file ⟨0⟩, .file ⟨1⟩] file

theorem scatteredPass_shape :
    ∃ finding, (scatteredPass ⟨0⟩).FindsTorn finding ∧ finding.1 = .decl ⟨0⟩ := by
  have others : (scatteredPass ⟨0⟩).othersFrom [] ⟨0⟩ = [⟨1⟩, ⟨2⟩] := by cbv
  exact Pass.findsTorn_of_start rfl (Pass.walkStarts_of_new [] rfl List.not_mem_nil (by cbv))
    (by simp [others]) (List.mem_singleton_self _) others (by decide +kernel) (by decide +kernel)

theorem scatteredPass_circle :
    ∃ finding, (scatteredPass ⟨1⟩).FindsTorn finding ∧ finding.1 = .decl ⟨1⟩ := by
  have others : (scatteredPass ⟨1⟩).othersFrom [] ⟨1⟩ = [⟨0⟩, ⟨2⟩] := by cbv
  exact Pass.findsTorn_of_start rfl (Pass.walkStarts_of_new [] rfl List.not_mem_nil (by cbv))
    (by simp [others]) (List.mem_singleton_self _) others (by decide +kernel) (by decide +kernel)

theorem reportedTwice_scattered : scattered.ReportedTwice {} moveTwoFiles ⟨0⟩ ⟨1⟩ := by
  have shape := scatteredPass_shape
  have circle := scatteredPass_circle
  have passes : scattered.passesOf scattered.services {} (.directory ⟨1⟩ ⟨"b"⟩)
      [.file ⟨0⟩, .file ⟨1⟩] = [scatteredPass ⟨0⟩, scatteredPass ⟨1⟩] := rfl
  refine reportedTwice_of_findsTorn rfl rfl passes ?_ (by decide) (.of_linked (by decide +kernel))
    ⟨_, List.mem_cons_self .., shape⟩ ⟨_, List.mem_cons_of_mem _ (List.mem_cons_self ..), circle⟩
  exact List.forall_mem_cons.mpr
    ⟨shape.imp fun _ => And.left, List.forall_mem_singleton.mpr (circle.imp fun _ => And.left)⟩

/-- Classes with two sealed superclasses, of which a walk asks for the first only. -/
def forked : Project :=
  let p := ({} : Project).addModule "core" .jvm
  let p := p.addDirectory "a" (.module ⟨0⟩ false) ⟨"a"⟩
  let p := (p.addDirectory "b" (.module ⟨0⟩ false) ⟨"b"⟩).addFile ⟨0⟩ "All.kt" none
  let p := p.addDecl
    { name := "Left", kind := .plainClass, parent := .file ⟨0⟩, modality := .sealed }
  let p := p.addDecl
    { name := "Right", kind := .plainClass, parent := .file ⟨0⟩, modality := .sealed }
  let (left, p) := p.classType ⟨0⟩
  let (right, p) := p.classType ⟨1⟩
  let p := p.addDecl
    { name := "Both", kind := .plainClass, parent := .file ⟨0⟩, supertypes := [left, right] }
  p.addDecl { name := "Other", kind := .plainClass, parent := .file ⟨0⟩, supertypes := [right] }

def moveForked : Manifest.MoveEntry where
  declarations := ["a.Both", "a.Right"]
  target := .directory "b" none

def forkedPass : Pass :=
  .ofNamed forked forked.services {} (.directory ⟨1⟩ ⟨"b"⟩) [.decl ⟨2⟩, .decl ⟨1⟩]

theorem forkedPass_walks :
    forkedPass.walkStarts [] forkedPass.elements = [([], ⟨2⟩), ([⟨0⟩, ⟨2⟩], ⟨1⟩)] ∧
      forkedPass.othersFrom [] ⟨2⟩ = [⟨0⟩] ∧ forkedPass.othersFrom [⟨0⟩, ⟨2⟩] ⟨1⟩ = [⟨3⟩] := by
  have first : forkedPass.hierarchyMembers [] ⟨2⟩ = ([⟨2⟩, ⟨0⟩], [⟨0⟩, ⟨2⟩]) := by cbv
  refine ⟨?_, by cbv, by cbv⟩
  calc
    forkedPass.walkStarts [] forkedPass.elements
        = ([], ⟨2⟩) :: forkedPass.walkStarts (forkedPass.hierarchyMembers [] ⟨2⟩).2 [⟨1⟩] :=
          Pass.walkStarts_of_new [⟨1⟩] rfl List.not_mem_nil (by cbv)
    _ = ([], ⟨2⟩) :: forkedPass.walkStarts [⟨0⟩, ⟨2⟩] [⟨1⟩] := by rw [first]
    _ = [([], ⟨2⟩), ([⟨0⟩, ⟨2⟩], ⟨1⟩)] := by
      rw [Pass.walkStarts_of_new [] rfl (by decide) (by cbv)]
      rfl

theorem findsTorn_forkedPass {seen : List DeclId} {entry : DeclId}
    (started : (seen, entry) ∈ forkedPass.walkStarts [] forkedPass.elements) :
    ∃ finding, forkedPass.FindsTorn finding ∧ finding.1 = .decl entry := by
  obtain ⟨walks, fromBoth, fromRight⟩ := forkedPass_walks
  have company : ∀ start ∈ [([], ⟨2⟩), ([⟨0⟩, ⟨2⟩], ⟨1⟩)],
      forkedPass.othersFrom start.1 start.2 ≠ [] := by simp [fromBoth, fromRight]
  rw [walks] at started
  rcases List.mem_pair.mp started with same | same <;> cases same
  · exact Pass.findsTorn_of_start rfl walks company started fromBoth (by decide +kernel)
      (by decide +kernel)
  · exact Pass.findsTorn_of_start rfl walks company started fromRight (by decide +kernel)
      (by decide +kernel)

theorem reportedTwice_forked : forked.ReportedTwice {} moveForked ⟨2⟩ ⟨1⟩ := by
  obtain ⟨walks, -, -⟩ := forkedPass_walks
  have both := findsTorn_forkedPass (walks ▸ List.mem_cons_self ..)
  have right := findsTorn_forkedPass (walks ▸ List.mem_cons_of_mem _ (List.mem_cons_self ..))
  have passes : forked.passesOf forked.services {} (.directory ⟨1⟩ ⟨"b"⟩)
      [.decl ⟨2⟩, .decl ⟨1⟩] = [forkedPass] := rfl
  exact reportedTwice_of_findsTorn rfl rfl passes
    (List.forall_mem_singleton.mpr (both.imp fun _ => And.left)) (by decide)
    (.of_linked (by decide +kernel)) ⟨_, List.mem_singleton_self _, both⟩
    ⟨_, List.mem_singleton_self _, right⟩

def moveEnds : Manifest.MoveEntry where
  files := ["c/Ends.kt"]
  target := .directory "d" none

def endsPass (n : Nat) : Pass :=
  .ofFile (chain n) (chain n).services {} (.directory ⟨3⟩ ⟨"d"⟩) [.file ⟨2⟩] ⟨2⟩

theorem findsTorn_endsPass {n : Nat} (full : hierarchyLimit = n) :
    (∃ finding, (endsPass n).FindsTorn finding ∧ finding.1 = .decl ⟨0⟩) ∧
      ∃ finding, (endsPass n).FindsTorn finding ∧ finding.1 = .decl ⟨n + 1⟩ := by
  have large := two_lt_of_full full
  have along : (endsPass n).project = chain n := rfl
  have nothing : ∀ id ∈ ([] : List DeclId), id.index < n + 2 := List.forall_mem_nil _
  obtain ⟨seen, walks, fromFirst, fromLast⟩ := Pass.walks_upwards along rfl full nothing
  have second : ⟨1⟩ ∈ (endsPass n).othersFrom [] ⟨0⟩ := (fromFirst ⟨1⟩).mpr (by simp; omega)
  have company : ∀ start ∈ [([], ⟨0⟩), (seen, ⟨n + 1⟩)],
      (endsPass n).othersFrom start.1 start.2 ≠ [] := by
    simp [List.ne_nil_of_mem second, fromLast]
  have stays {i : Nat} (low : 0 < i) (high : i < n + 1) :
      (endsPass n).isMoving (.decl ⟨i⟩) = false := by
    rw [← Bool.not_eq_true]
    refine (isInside_chain (by simp only; omega)).not.mpr ?_
    simp only [chainHome, show ¬ (i = 0 ∨ i = n + 1) by omega, if_false]
    split <;> simp [endsPass, Pass.ofFile]
  -- Nothing of a chain is in the target directory.
  have nobody {other : DeclId} (inside : other.index < n + 2) :
      (endsPass n).residence? other ≠ some ⟨⟨0⟩, ⟨"d"⟩, ⟨3⟩⟩ := by
    rw [Pass.residence?_chain rfl inside]
    unfold chainResidence
    split
    · simp
    · split <;> simp
  constructor
  · refine Pass.findsTorn_of_start rfl walks company (List.mem_cons_self ..) rfl
      ⟨⟨1⟩, second, stays (by omega) (by omega)⟩
      (Pass.isSome_relaxedConflict?.mpr ⟨_, rfl, Or.inl fun other member => nobody ?_⟩)
    have := (fromFirst other).mp member
    omega
  · refine Pass.findsTorn_of_start rfl walks company
      (List.mem_cons_of_mem _ (List.mem_singleton_self _)) fromLast
      ⟨⟨n⟩, List.mem_singleton_self _, stays (by omega) (by omega)⟩
      (Pass.isSome_relaxedConflict?.mpr ⟨_, rfl, Or.inl fun other member => nobody ?_⟩)
    rw [List.mem_singleton.mp member]
    simp only
    omega

theorem reportedTwice_chain {n : Nat} (full : hierarchyLimit = n) :
    (chain n).ReportedTwice {} moveEnds ⟨0⟩ ⟨n + 1⟩ := by
  obtain ⟨first, last⟩ := findsTorn_endsPass full
  have passes : (chain n).passesOf (chain n).services {} (.directory ⟨3⟩ ⟨"d"⟩) [.file ⟨2⟩] =
      [endsPass n] := rfl
  exact reportedTwice_of_findsTorn rfl (by cbv) passes
    (List.forall_mem_singleton.mpr (first.imp fun _ => And.left)) (by simp)
    (sameHierarchy_chain (Nat.lt_succ_self _)) ⟨_, List.mem_singleton_self _, first⟩
    ⟨_, List.mem_singleton_self _, last⟩

/-- Two files of one hierarchy are reported apart. So are two classes of one pass, if the walk from
the first does not come to the second, because it is not asked for or because it is too far. -/
theorem hierarchy_reported_twice :
    scattered.ReportedTwice {} moveTwoFiles ⟨0⟩ ⟨1⟩ ∧
      forked.ReportedTwice {} moveForked ⟨2⟩ ⟨1⟩ ∧
      (chain hierarchyLimit).ReportedTwice {} moveEnds ⟨0⟩ ⟨hierarchyLimit + 1⟩ :=
  ⟨reportedTwice_scattered, reportedTwice_forked, reportedTwice_chain rfl⟩

theorem once_per_pass_moveTwoFiles :
    (∀ id, scattered.Walkable id) ∧
    ∃ result, scattered.checkMove scattered.services {} moveTwoFiles = .ok result ∧
      ∃ elements target, moveTwoFiles.resolve scattered = .ok (elements, target) ∧
        ReportsOncePerPass scattered (scattered.passesOf scattered.services {} target elements)
          result.report := by
  obtain ⟨-, -, result, returned, -⟩ := reportedTwice_scattered
  exact ⟨plainHierarchies_scattered.walkable, result, returned,
    hierarchies_reported_once_per_pass rfl returned⟩

end Project

end Relocation
