import Relocation.Project.Build
import Relocation.Proofs.Check.TopLevel
import Relocation.Proofs.Project.Extends
set_option autoImplicit false

/-!
A file that moves, and the declarations of the file that move.

The request to move a file is answered by a pass over the file, and the request to move its
declarations by a pass over these. Both get the same usages and leave the same.
-/

namespace Relocation

namespace Project

variable {p : Project} {file : FileId}

theorem declarationsIn_topLevel :
    p.declarationsIn ((p.topLevel file).map .decl) = p.declarationsIn [.file file] := by
  have named : p.namedBy ((p.topLevel file).map .decl) = p.namedBy [.file file] := by
    simp [namedBy, List.flatMap_map]
  rw [declarationsIn, declarationsIn, named]

theorem liesIn_of_mem_collectUsages (built : p.Built) {usage : Usage}
    (found : usage ∈ p.collectUsages p.services [.file file]) :
    usage.reference ∈ p.refIds ∧ p.LiesIn (.decl usage.referenced) (.file file) := by
  obtain ⟨referenced, moves, fromDecl⟩ := List.mem_flatMap.mp found
  obtain ⟨reference, referring, rfl⟩ := List.mem_map.mp fromDecl
  obtain ⟨element, listed, inside⟩ := built.listsChildren.liesIn_of_mem_declarationsIn moves
  rw [List.mem_singleton.mp listed] at inside
  exact ⟨(p.mem_referencesTo referring).1, inside⟩

section InDecls

variable (built : p.Built) (inDecls : p.InDecls file)
include built inDecls

theorem collectUsages_topLevel :
    p.collectUsages p.services ((p.topLevel file).map .decl) =
      p.collectUsages p.services [.file file] := by
  unfold collectUsages
  rw [declarationsIn_topLevel]
  refine List.flatMap_congr fun referenced _ => List.map_congr_left fun reference referring => ?_
  have known := (p.mem_referencesTo referring).1
  rw [built.listed.isInside_topLevel built.listsChildren (inDecls.references reference known)
    (inDecls.shallow (.reference reference))]

theorem usagesOfFile_collectUsages :
    p.usagesOfFile (p.collectUsages p.services [.file file]) file =
      p.collectUsages p.services [.file file] := by
  refine List.filter_eq_self.mpr fun usage found => beq_iff_eq.mpr ?_
  have inside := (liesIn_of_mem_collectUsages built found).2
  exact inside.fileWithin_eq (inDecls.shallow (.decl usage.referenced) inside)

theorem usagesOfDecls_collectUsages :
    p.usagesOfDecls (p.collectUsages p.services [.file file]) ((p.topLevel file).map .decl) =
      p.collectUsages p.services [.file file] := by
  refine List.filter_eq_self.mpr fun usage found => List.any_eq_true.mpr ?_
  obtain ⟨referenced, moves, fromDecl⟩ := List.mem_flatMap.mp found
  obtain ⟨reference, -, rfl⟩ := List.mem_map.mp fromDecl
  rw [← declarationsIn_topLevel] at moves
  obtain ⟨element, listed, inside⟩ := built.listsChildren.liesIn_of_mem_declarationsIn moves
  obtain ⟨top, member, rfl⟩ := List.mem_map.mp listed
  have inFile := inside.trans (built.listsChildren.liesIn_of_mem_topLevel member)
  exact ⟨top, Element.mem_filterMap_asDecl?.mpr listed,
    inside.isAncestor (inDecls.shallow (.decl referenced) inFile)⟩

end InDecls

end Project

theorem Target.isPackage_of_container? {p : Project} {target : Target} {into : Container}
    (notDecl : ∀ owner, target ≠ .decl owner) (lands : target.container? p = some into) :
    into.isPackage = true := by
  cases target with
  | decl owner => exact absurd rfl (notDecl owner)
  | file id =>
    cases lands
    rfl
  | directory id package | newFile id package name =>
    obtain ⟨module, -, rfl⟩ := Option.map_eq_some_iff.mp lands
    rfl

def Manifest.MoveEntry.ofFile (path : String) (entry : TargetEntry) : MoveEntry where
  files := [path]
  target := entry

def Manifest.MoveEntry.ofTopLevel (p : Project) (file : FileId) (entry : TargetEntry) :
    MoveEntry where
  declarations := (p.topLevel file).map fun id => (p.qualifiedName id).text
  target := entry

section Requests

variable {p : Project} {options : CheckOptions} {target : Target} {file : FileId}
  {result : CheckResult}

theorem Project.checkElements_file
    (returned : p.checkElements p.services options [.file file] target = .ok result) :
    ∃ outcome, checkFile p p.services options target [.file file] file
        (p.usagesOfFile (p.collectUsages p.services [.file file]) file) {} = .ok outcome ∧
      result = ⟨outcome.1, (p.collectUsages p.services [.file file]).length,
        outcome.2.getD (p.usagesOfFile (p.collectUsages p.services [.file file]) file)⟩ := by
  obtain ⟨_, begun, returned⟩ := bind_eq_ok.mp returned
  obtain ⟨last, folded, done⟩ := bind_eq_ok.mp returned
  cases begun
  cases done
  obtain ⟨middle, ran, done⟩ := bind_eq_ok.mp folded
  obtain ⟨outcome, checked, stepped⟩ := bind_eq_ok.mp ran
  cases stepped
  cases done
  exact ⟨outcome, checked, rfl⟩

theorem Project.checkElements_decls {ids : List DeclId} (named : ids ≠ [])
    (returned : p.checkElements p.services options (ids.map .decl) target = .ok result) :
    ∃ after, (Pass.ofNamed p p.services options target (ids.map .decl)).check
        (.ofUsages (p.usagesOfDecls (p.collectUsages p.services (ids.map .decl)) (ids.map .decl))
          {}) = .ok after ∧
      result = ⟨after.report, (p.collectUsages p.services (ids.map .decl)).length,
        after.usages⟩ := by
  have decls : ((ids.map Element.decl).filterMap Element.asDecl?).isEmpty = false := by
    rw [Element.filterMap_asDecl?_map, List.isEmpty_eq_false_iff]
    exact named
  have noFiles : filesIn (ids.map .decl) = [] := by
    simp [filesIn]
  unfold checkElements at returned
  simp only [decls, noFiles, Bool.false_eq_true, if_false] at returned
  obtain ⟨after, checked, returned⟩ := bind_eq_ok.mp returned
  cases returned
  exact ⟨after, checked, rfl⟩

/-- The checks of a file and of its declarations say the same: they leave the same usages, and find
the same but for what is said of references that name something protected. These are judged in the
same way unless the target is a declaration. -/
structure Project.SaysSame (p : Project) (file : FileId) (target : Target)
    (one other : CheckResult) : Prop where
  found : one.usagesFound = other.usagesFound
  remaining : ∀ usage, usage ∈ one.usagesRemaining ↔ usage ∈ other.usagesRemaining
  findings : ∀ finding,
    (∀ id, finding.1 = .reference id → finding.2.code = 1101 → ¬ p.NamesProtected id) →
      (finding ∈ one.report.findings ↔ finding ∈ other.report.findings)
  report : ((∀ owner, target ≠ .decl owner) ∨
    ∀ id ∈ p.refIds, p.LiesIn (.reference id) (.file file) → ¬ p.NamesProtected id) →
      one.report = other.report

theorem Project.passesOf_file :
    p.passesOf p.services options target [.file file] = [.ofWhole p options target file] := rfl

theorem Project.passesOf_topLevel :
    p.passesOf p.services options target ((p.topLevel file).map .decl) =
      if p.topLevel file = [] then [] else [.ofTopLevel p options target file] := by
  have noFiles : filesIn ((p.topLevel file).map .decl) = [] := by simp [filesIn]
  rw [passesOf, Element.filterMap_asDecl?_map, noFiles, Pass.ofNamed_topLevel, List.map_nil,
    List.append_nil]

section InDecls

variable (built : p.Built) (inDecls : p.InDecls file)
include built inDecls

theorem Project.returns_topLevel :
    (∃ result, p.checkElements p.services options [.file file] target = .ok result) ↔
      ∃ result, p.checkElements p.services options ((p.topLevel file).map .decl) target =
        .ok result := by
  have same : (Pass.ofTopLevel p options target file).hierarchyFindings =
      (Pass.ofWhole p options target file).hierarchyFindings :=
    Pass.hierarchyFindings_withMoving (Pass.movesSame_topLevel built inDecls) rfl
  rw [checkElements_returns_iff, checkElements_returns_iff, passesOf_file, passesOf_topLevel,
    List.forall_mem_singleton]
  split
  next empty =>
    have nothing := Pass.hierarchyFindings_of_nil (.ofWhole p options target file) empty
    exact iff_of_true ⟨_, nothing⟩ (fun _ listed => nomatch listed)
  · rw [List.forall_mem_singleton, same]

theorem Project.saysSame_topLevel {one other : CheckResult}
    (oneReturned : p.checkElements p.services options [.file file] target = .ok one)
    (otherReturned : p.checkElements p.services options ((p.topLevel file).map .decl) target =
      .ok other) : p.SaysSame file target one other := by
  obtain ⟨outcome, ran, rfl⟩ := checkElements_file oneReturned
  rw [usagesOfFile_collectUsages built inDecls] at ran ⊢
  by_cases empty : p.topLevel file = []
  · have noUsages : p.collectUsages p.services [.file file] = [] := by
      simp [collectUsages, declarationsIn, namedBy, empty]
    obtain rfl : ({}, none) = outcome := by simpa [checkFile, empty] using ran
    rw [empty] at otherReturned
    cases otherReturned
    rw [noUsages]
    exact ⟨rfl, fun _ => Iff.rfl, fun _ _ => Iff.rfl, fun _ => rfl⟩
  · obtain ⟨otherAfter, otherRan, rfl⟩ := checkElements_decls empty otherReturned
    rw [collectUsages_topLevel built inDecls, usagesOfDecls_collectUsages built inDecls,
      Pass.ofNamed_topLevel] at otherRan
    rw [collectUsages_topLevel built inDecls]
    have same : (Pass.ofWhole p options target file).MovesSame ((p.topLevel file).map .decl) :=
      Pass.movesSame_topLevel built inDecls
    have names : (Pass.ofTopLevel p options target file).nameClashes =
        (Pass.ofWhole p options target file).nameClashes := Pass.nameClashes_ofTopLevel built
    have known : ∀ usage ∈ (CheckState.ofUsages (p.collectUsages p.services [.file file]) {}).external,
        usage.reference ∈ p.refIds := fun usage outside =>
      (liesIn_of_mem_collectUsages built (Pass.mem_ofUsages_external.mp outside).1).1
    obtain ⟨absurdly, -⟩ | ⟨oneAfter, oneRan, report, -⟩ := checkFile_eq_ok ran
    · exact absurd absurdly empty
    · refine { found := rfl, remaining := ?_, findings := ?_, report := ?_ }
      · intro usage
        have left := Pass.usages_withMoving same built.listed known oneRan otherRan
        rw [Pass.mem_getD_of_checkFile empty ran oneRan, left]
      · intro finding free
        rw [report]
        exact (Pass.mem_findings_withMoving same built.listed rfl known names oneRan otherRan
          (Pass.mem_lostReferences_ofTopLevel built inDecls free)).symm
      · intro free
        have references : (Pass.ofTopLevel p options target file).lostReferences =
            (Pass.ofWhole p options target file).lostReferences := by
          refine Pass.lostReferences_ofTopLevel built inDecls fun into lands id listed inside => ?_
          exact free.imp (fun notDecl => Target.isPackage_of_container? notDecl lands)
            fun unnamed => unnamed id listed inside
        have oneAgain : (Pass.ofTopLevel p options target file).check
            (.ofUsages (p.collectUsages p.services [.file file]) {}) = .ok oneAfter :=
          (Pass.check_withMoving same built.listed rfl known names references).trans oneRan
        rw [otherRan, Except.ok.injEq] at oneAgain
        rw [report, oneAgain]

end InDecls

theorem Manifest.mapM_findDecl {ids : List DeclId}
    (first : ∀ id ∈ ids, p.findDecl? (p.qualifiedName id).text = some id) :
    (ids.map fun id => (p.qualifiedName id).text).mapM (findDecl p) = .ok ids := by
  induction ids with
  | nil => rfl
  | cons id rest inductionHypothesis =>
    obtain ⟨here, later⟩ := List.forall_mem_cons.mp first
    have found : findDecl p (p.qualifiedName id).text = .ok id := by
      rw [findDecl, here]
    rw [List.map_cons, List.mapM_cons, found, inductionHypothesis later]
    rfl

theorem Manifest.resolve_ofFile {path : String} {entry : TargetEntry}
    (found : findFile p path = .ok file) :
    (MoveEntry.ofFile path entry).resolve p =
      (entry.resolve p).map fun target => ([.file file], target) := by
  simp only [MoveEntry.resolve, MoveEntry.ofFile, List.mapM_cons, List.mapM_nil, found]
  cases entry.resolve p <;> rfl

theorem Manifest.resolve_ofTopLevel {entry : TargetEntry}
    (first : ∀ id ∈ p.topLevel file, p.findDecl? (p.qualifiedName id).text = some id) :
    (MoveEntry.ofTopLevel p file entry).resolve p =
      (entry.resolve p).map fun target => ((p.topLevel file).map .decl, target) := by
  simp only [MoveEntry.resolve, MoveEntry.ofTopLevel, mapM_findDecl first, List.mapM_nil]
  cases entry.resolve p with
  | error problem => rfl
  | ok target => simp [bind, Except.bind, pure, Except.pure, Except.map]

/-- A file that is found by its path, as the declarations at its top level are by their names. -/
structure Project.Addressed (p : Project) (path : String) (file : FileId) : Prop where
  byPath : Manifest.findFile p path = .ok file
  byName : ∀ id ∈ p.topLevel file, p.findDecl? (p.qualifiedName id).text = some id

/-- To move a file is to move the declarations at its top level: both requests return or neither
does, and their results say the same. -/
theorem Project.file_moves_as_its_declarations (built : p.Built) (inDecls : p.InDecls file)
    {path : String} (addressed : p.Addressed path file) (entry : Manifest.TargetEntry) :
    ((∃ one, p.checkMove p.services options (.ofFile path entry) = .ok one) ↔
      ∃ other, p.checkMove p.services options (.ofTopLevel p file entry) = .ok other) ∧
    ∀ one other, p.checkMove p.services options (.ofFile path entry) = .ok one →
      p.checkMove p.services options (.ofTopLevel p file entry) = .ok other →
        ∃ target, entry.resolve p = .ok target ∧ p.SaysSame file target one other := by
  simp only [checkMove_eq_ok_iff, Manifest.resolve_ofFile addressed.byPath,
    Manifest.resolve_ofTopLevel addressed.byName]
  cases entry.resolve p with
  | error problem =>
    constructor
    · constructor <;> rintro ⟨_, _, _, failed, -⟩ <;> cases failed
    · rintro one other ⟨_, _, failed, -⟩
      cases failed
  | ok target =>
    have resolved (elements : List Element) (result : CheckResult) :
        (∃ moving destination,
          (Except.ok target : Except Manifest.Problem Target).map (fun target => (elements, target)) =
              .ok (moving, destination) ∧
            p.checkElements p.services options moving destination = .ok result) ↔
          p.checkElements p.services options elements target = .ok result := by
      constructor
      · rintro ⟨_, _, same, returned⟩
        cases same
        exact returned
      · exact fun returned => ⟨_, _, rfl, returned⟩
    simp only [resolved]
    refine ⟨returns_topLevel built inDecls, fun one other oneReturned otherReturned => ?_⟩
    exact ⟨target, rfl, saysSame_topLevel built inDecls oneReturned otherReturned⟩

end Requests

namespace Project

/-- A class with a protected member, and two classes that inherit from it in packages of their own,
one of which refers to the member. -/
def familyCalls : List BuilderCall := [
  .module "core" .jvm, .directory "a" (.module ⟨0⟩ false) ⟨"a"⟩,
  .directory "b" (.module ⟨0⟩ false) ⟨"b"⟩, .directory "c" (.module ⟨0⟩ false) ⟨"c"⟩,
  .file ⟨0⟩ "Base.kt" none, .file ⟨1⟩ "Leaf.kt" none, .file ⟨2⟩ "Home.kt" none,
  .decl { name := "Base", kind := .plainClass, parent := .file ⟨0⟩ },
  .internedType (.applied ⟨0⟩ [] false),
  .decl { name := "secret", kind := .property, parent := .decl ⟨0⟩, visibility := .prot },
  .decl { name := "Leaf", kind := .plainClass, parent := .file ⟨1⟩, supertypes := [⟨2⟩] },
  .decl { name := "Home", kind := .plainClass, parent := .file ⟨2⟩, supertypes := [⟨2⟩] },
  .referenceFrom ⟨2⟩ ⟨1⟩ {}]

def family : Project := (run? {} familyCalls).getD {}

theorem built_family : family.Built := ⟨familyCalls, rfl⟩

theorem inDecls_family : family.InDecls ⟨1⟩ where
  references := by
    intro id known
    obtain rfl : id = ⟨0⟩ := List.mem_singleton.mp known
    show (⟨2⟩ : DeclId) ∈ family.declIds
    decide +kernel
  shallow := by
    have nested : family.NestedBelow 250 := by decide +kernel
    exact fun element _ => nested.ends (by decide) element

theorem addressed_family : family.Addressed "b/Leaf.kt" ⟨1⟩ where
  byPath := rfl
  byName := by decide +kernel

def secretLost : CheckResult where
  report := ⟨[(.reference ⟨0⟩, [⟨1101, .error,
    "Class Leaf uses property secret which will be inaccessible after move"⟩])]⟩
  usagesFound := 0
  usagesRemaining := []

/-- If `Leaf` is named, it is known that it will be in `Home`, which inherits from `Base`. -/
theorem checkElements_family :
    family.checkElements family.services {} [.file ⟨1⟩] (.decl ⟨3⟩) = .ok secretLost ∧
      family.checkElements family.services {} [.decl ⟨2⟩] (.decl ⟨3⟩) =
        .ok { report := {}, usagesFound := 0, usagesRemaining := [] } := by
  constructor <;> decide +kernel

/-- What a floor of a tower lies in: the file for the first, else the floor before. -/
def parentOfFloor : Nat → Parent
  | 0 => .file ⟨0⟩
  | below + 1 => .decl ⟨below⟩

/-- A function of a file, and functions nested in it, each in the one before. -/
def tower : Nat → Project
  | 0 =>
    let p := ({} : Project).addModule "core" .jvm
    let p := p.addDirectory "a" (.module ⟨0⟩ false) ⟨"a"⟩
    let p := (p.addDirectory "b" (.module ⟨0⟩ false) ⟨"b"⟩).addFile ⟨0⟩ "Tower.kt" none
    p.addDecl { name := "floor", kind := .function, parent := .file ⟨0⟩ }
  | count + 1 =>
    (tower count).addDecl { name := "floor", kind := .function, parent := .decl ⟨count⟩ }

def calledTower (count : Nat) : Project :=
  (tower count).addReference ⟨0⟩ (some ⟨count⟩) (some ⟨0⟩) {}

section Tower

variable {count : Nat}

theorem size_tower : (tower count).decls.size = count + 1 := by
  induction count with
  | zero => rfl
  | succ count inductionHypothesis =>
    simp [tower, addDecl, editDecl, inductionHypothesis]

theorem fields_tower : (tower count).files = (tower 0).files ∧
    (tower count).directories = (tower 0).directories ∧
    (tower count).references = (tower 0).references := by
  induction count with
  | zero => exact ⟨rfl, rfl, rfl⟩
  | succ count inductionHypothesis => exact inductionHypothesis

theorem decl_tower {level : Nat} (inside : level ≤ count) :
    ((tower count).decl ⟨level⟩).kind = .function ∧
      ((tower count).decl ⟨level⟩).parent = parentOfFloor level := by
  induction count with
  | zero =>
    obtain rfl := Nat.le_zero.mp inside
    exact ⟨rfl, rfl⟩
  | succ count inductionHypothesis =>
    rw [tower, field_addDecl Declaration.kind (fun _ _ => rfl), parent_addDecl]
    split
    next new =>
      obtain rfl : level = count + 1 := by simpa [nextDecl, size_tower] using new
      exact ⟨rfl, rfl⟩
    next old =>
      have different : level ≠ count + 1 := by simpa [nextDecl, size_tower] using old
      exact inductionHypothesis (by omega)

theorem mem_declIds_tower {level : Nat} : ⟨level⟩ ∈ (tower count).declIds ↔ level ≤ count := by
  rw [mem_declIds, size_tower, Nat.lt_succ_iff]

theorem built_tower : (tower count).Built := by
  induction count with
  | zero =>
    exact ⟨[.module "core" .jvm, .directory "a" (.module ⟨0⟩ false) ⟨"a"⟩,
      .directory "b" (.module ⟨0⟩ false) ⟨"b"⟩, .file ⟨0⟩ "Tower.kt" none,
      .decl { name := "floor", kind := .function, parent := .file ⟨0⟩ }], rfl⟩
  | succ count inductionHypothesis =>
    have offered : (tower count).Offers (.decl ⟨count⟩) :=
      mem_declIds_tower.mpr (Nat.le_refl count)
    exact (Extends.addDecl rfl offered).built inductionHypothesis

theorem built_calledTower : (calledTower count).Built := by
  have ready : (BuilderCall.reference ⟨0⟩ (some ⟨count⟩) (some ⟨0⟩) {}).isReady (tower count) =
      true := by
    simpa [BuilderCall.isReady] using mem_declIds_tower.mpr (Nat.zero_le count)
  exact (Extends.call _ ready).built built_tower

theorem reference_calledTower : (calledTower count).refIds = [⟨0⟩] ∧
    ((calledTower count).reference ⟨0⟩).owner = some ⟨count⟩ ∧
    ((calledTower count).reference ⟨0⟩).target = some ⟨0⟩ := by
  have none : (tower count).references = #[] := fields_tower.2.2
  simp [calledTower, addReference, refIds, reference, none]

theorem present_calledTower :
    ∀ id ∈ (calledTower count).refIds, (calledTower count).Present ⟨0⟩ (.reference id) := by
  intro id known
  obtain ⟨refIds, owned, -⟩ := @reference_calledTower count
  rw [refIds, List.mem_singleton] at known
  rw [known, Present, owned]
  exact mem_declIds_tower.mpr (Nat.le_refl count)

theorem topLevel_calledTower : (calledTower count).topLevel ⟨0⟩ = [⟨0⟩] := by
  have files : (calledTower count).files = (tower 0).files := fields_tower.1
  rw [topLevel, file, files]
  rfl

theorem around?_calledTower {level : Nat} (inside : level + 1 ≤ count) :
    (calledTower count).around? (.decl ⟨level + 1⟩) = some (.decl ⟨level⟩) := by
  have parent : ((calledTower count).decl ⟨level + 1⟩).parent = .decl ⟨level⟩ :=
    (decl_tower inside).2
  rw [around?, parent]

theorem liesWithin_lowest {level steps : Nat} (inside : level ≤ count) (enough : level ≤ steps) :
    (calledTower count).liesWithin (.decl ⟨0⟩) steps (.decl ⟨level⟩) = true := by
  induction level generalizing steps with
  | zero => exact liesWithin_self _ _ _
  | succ level inductionHypothesis =>
    obtain ⟨rest, rfl⟩ : ∃ rest, steps = rest + 1 := ⟨steps - 1, by omega⟩
    have further := inductionHypothesis (by omega) (Nat.le_of_succ_le_succ enough)
    simp [liesWithin, around?_calledTower inside, further]

theorem not_liesWithin_file {level steps : Nat} (inside : level ≤ count) (few : steps ≤ level) :
    (calledTower count).liesWithin (.file ⟨0⟩) steps (.decl ⟨level⟩) = false := by
  induction steps generalizing level with
  | zero => rfl
  | succ steps inductionHypothesis =>
    obtain ⟨below, rfl⟩ : ∃ below, level = below + 1 := ⟨level - 1, by omega⟩
    have further := inductionHypothesis (by omega) (Nat.le_of_succ_le_succ few)
    simp [liesWithin, around?_calledTower inside, further]

theorem liesWithin_reference :
    (calledTower count).liesWithin (.decl ⟨0⟩) (count + 1) (.reference ⟨0⟩) = true ∧
      (calledTower count).liesWithin (.file ⟨0⟩) (count + 1) (.reference ⟨0⟩) = false := by
  have around : (calledTower count).around? (.reference ⟨0⟩) = some (.decl ⟨count⟩) := by
    rw [around?, reference_calledTower.2.1]
  constructor
  · simp [liesWithin, around, liesWithin_lowest (Nat.le_refl count) (Nat.le_refl count)]
  · simp [liesWithin, around, not_liesWithin_file (Nat.le_refl count) (Nat.le_refl count)]

theorem mem_collectUsages_calledTower :
    ⟨⟨0⟩, ⟨0⟩, (calledTower count).isInside [.decl ⟨0⟩] (.reference ⟨0⟩)⟩ ∈
      (calledTower count).collectUsages (calledTower count).services [.decl ⟨0⟩] := by
  obtain ⟨known, -, resolved⟩ := @reference_calledTower count
  have declared : (⟨0⟩ : DeclId) ∈ (calledTower count).declIds :=
    mem_declIds_tower.mpr (Nat.zero_le count)
  have referring : (⟨0⟩ : RefId) ∈ (calledTower count).services.referencesTo ⟨0⟩ := by
    rw [referencesTo_eq _ declared, known]
    simp [resolved]
  exact List.mem_flatMap.mpr ⟨⟨0⟩, List.mem_append_left _ (List.mem_singleton_self _),
    List.mem_map.mpr ⟨⟨0⟩, referring, rfl⟩⟩

theorem moduleOf?_calledTower : (calledTower count).moduleOf? ⟨0⟩ = some ⟨0⟩ := by
  have parent : ((calledTower count).decl ⟨0⟩).parent = .file ⟨0⟩ :=
    (decl_tower (Nat.zero_le count)).2
  have home : (calledTower count).fileOf? ⟨0⟩ = some ⟨0⟩ := by
    rw [fileOf?, chainLimit, fileWithin, parent]
  have files : (calledTower count).files = (tower 0).files := fields_tower.1
  have directories : (calledTower count).directories = (tower 0).directories := fields_tower.2.1
  simp only [moduleOf?, rootOf?, home, Option.map_some, Option.bind_some, rootOfFile, file,
    directory, files, directories]
  rfl

def towerPass (count : Nat) : Pass :=
  .ofNamed (calledTower count) (calledTower count).services {} (.directory ⟨1⟩ ⟨"b"⟩) [.decl ⟨0⟩]

theorem referencesOutOfScope_towerPass : (towerPass count).referencesOutOfScope = [] := by
  have directories : (calledTower count).directories = (tower 0).directories := fields_tower.2.1
  have module : (towerPass count).targetModule? = some ⟨0⟩ := by
    show ((calledTower count).directory ⟨1⟩).root.module? = some ⟨0⟩
    rw [directory, directories]
    rfl
  have stays : (towerPass count).walked.filter
      (fun id => (towerPass count).project.moduleOf? id != some ⟨0⟩) = [] := by
    refine List.filter_eq_nil_iff.mpr fun id walked => ?_
    obtain rfl : id = ⟨0⟩ := List.mem_singleton.mp (List.mem_filter.mp walked).1
    show ¬ ((calledTower count).moduleOf? ⟨0⟩ != some ⟨0⟩) = true
    simp [moduleOf?_calledTower]
  simp only [Pass.referencesOutOfScope, module, stays, List.flatMap_nil]

theorem returns_calledTower (moving : List Element) (passes : (calledTower count).passesOf
      (calledTower count).services {} (.directory ⟨1⟩ ⟨"b"⟩) moving =
        [{ towerPass count with moving := moving }]) :
    ∃ result, (calledTower count).checkElements (calledTower count).services {} moving
      (.directory ⟨1⟩ ⟨"b"⟩) = .ok result := by
  rw [checkElements_returns_iff, passes, List.forall_mem_singleton]
  have kind : ((calledTower count).decl ⟨0⟩).kind = .function :=
    (decl_tower (Nat.zero_le count)).1
  refine ⟨[], ?_⟩
  show Pass.relaxedFindings _ [] [⟨0⟩] = .ok []
  rw [Pass.relaxedFindings_cons, if_pos]
  · rfl
  · left
    show (!((calledTower count).decl ⟨0⟩).kind.isClassLike) = true
    rw [kind]
    rfl

theorem addressed_calledTower : (calledTower count).Addressed "a/Tower.kt" ⟨0⟩ where
  byPath := by
    have files : (calledTower count).files = (tower 0).files := fields_tower.1
    have directories : (calledTower count).directories = (tower 0).directories := fields_tower.2.1
    simp only [Manifest.findFile, fileIds, filePath, file, directory, files, directories]
    rfl
  byName := by
    intro id listed
    rw [topLevel_calledTower, List.mem_singleton] at listed
    subst listed
    have first : (calledTower count).declIds = ⟨0⟩ :: (List.range count).map fun index =>
        ⟨index + 1⟩ := by
      have size : (calledTower count).decls.size = count + 1 := size_tower
      simp [declIds, size, List.range_succ_eq_map, Function.comp_def]
    rw [findDecl?, first, List.find?_cons_of_pos]
    exact beq_self_eq_true _

/-- The usage stays inside what moves if the lowest floor is named and the reference found in it. -/
theorem usages_calledTower
    (inDecl : (calledTower count).isInside [.decl ⟨0⟩] (.reference ⟨0⟩) = true)
    (notInFile : (calledTower count).isInside [.file ⟨0⟩] (.reference ⟨0⟩) = false)
    {one other : CheckResult}
    (oneReturned : (calledTower count).checkElements (calledTower count).services {} [.file ⟨0⟩]
      (.directory ⟨1⟩ ⟨"b"⟩) = .ok one)
    (otherReturned : (calledTower count).checkElements (calledTower count).services {} [.decl ⟨0⟩]
      (.directory ⟨1⟩ ⟨"b"⟩) = .ok other) :
    ⟨⟨0⟩, ⟨0⟩, true⟩ ∈ other.usagesRemaining ∧ ⟨⟨0⟩, ⟨0⟩, true⟩ ∉ one.usagesRemaining := by
  constructor
  · have named : ([⟨0⟩] : List DeclId) ≠ [] := List.cons_ne_nil _ _
    obtain ⟨after, checked, rfl⟩ := checkElements_decls named otherReturned
    obtain ⟨alone, -, account⟩ := Pass.accounted_of_check _ checked
    have collected : ⟨⟨0⟩, ⟨0⟩, true⟩ ∈
        (calledTower count).collectUsages (calledTower count).services [.decl ⟨0⟩] :=
      inDecl ▸ mem_collectUsages_calledTower
    refine (Pass.Accounted.mem_usages _ account _).mpr ⟨List.mem_filter.mpr ⟨collected, ?_⟩, ?_⟩
    · simp [Element.asDecl?, isAncestor, liesWithin_self]
    · show (Pass.referencesOutOfScope (towerPass count)).any _ = false
      rw [referencesOutOfScope_towerPass]
      rfl
  · intro left
    obtain ⟨outcome, ran, rfl⟩ := checkElements_file oneReturned
    have listed : (calledTower count).topLevel ⟨0⟩ ≠ [] := by
      rw [topLevel_calledTower]
      exact List.cons_ne_nil _ _
    obtain ⟨empty, -⟩ | ⟨after, checked, -⟩ := checkFile_eq_ok ran
    · exact listed empty
    · obtain ⟨alone, -, account⟩ := Pass.accounted_of_check _ checked
      have own := (Pass.Accounted.mem_usages _ account _).mp
        ((Pass.mem_getD_of_checkFile listed ran checked _).mp left)
      obtain ⟨referenced, -, collected⟩ := List.mem_flatMap.mp (List.mem_filter.mp own.1).1
      obtain ⟨reference, -, same⟩ := List.mem_map.mp collected
      obtain ⟨rfl, -, inside⟩ := Usage.mk.inj same
      rw [notInFile] at inside
      cases inside

end Tower

/-- The reference lies in the function that is named, but too deep to be found in the file. -/
theorem isInside_calledTower :
    (calledTower 255).isInside [.decl ⟨0⟩] (.reference ⟨0⟩) = true ∧
      (calledTower 255).isInside [.file ⟨0⟩] (.reference ⟨0⟩) = false := by
  simp only [isInside, List.any_cons, List.any_nil, Bool.or_false]
  exact liesWithin_reference

theorem checkMove_calledTower : ∃ one other,
    (calledTower 255).checkMove (calledTower 255).services {}
        (.ofFile "a/Tower.kt" (.directory "b" none)) = .ok one ∧
      (calledTower 255).checkMove (calledTower 255).services {}
          (.ofTopLevel (calledTower 255) ⟨0⟩ (.directory "b" none)) = .ok other ∧
      ⟨⟨0⟩, ⟨0⟩, true⟩ ∈ other.usagesRemaining ∧ ⟨⟨0⟩, ⟨0⟩, true⟩ ∉ one.usagesRemaining := by
  obtain ⟨inDecl, notInFile⟩ := isInside_calledTower
  generalize (255 : Nat) = count at *
  have target : Manifest.TargetEntry.resolve (calledTower count) (.directory "b" none) =
      .ok (.directory ⟨1⟩ ⟨"b"⟩) := by
    have directories : (calledTower count).directories = (tower 0).directories :=
      fields_tower.2.1
    simp only [Manifest.TargetEntry.resolve, Manifest.findDirectory, Manifest.packageOr, dirIds,
      directory, directories]
    rfl
  have byPath : (Manifest.MoveEntry.ofFile "a/Tower.kt" (.directory "b" none)).resolve
      (calledTower count) = .ok ([.file ⟨0⟩], .directory ⟨1⟩ ⟨"b"⟩) := by
    rw [Manifest.resolve_ofFile addressed_calledTower.byPath, target]
    rfl
  have byName : (Manifest.MoveEntry.ofTopLevel (calledTower count) ⟨0⟩
      (.directory "b" none)).resolve (calledTower count) =
        .ok ([.decl ⟨0⟩], .directory ⟨1⟩ ⟨"b"⟩) := by
    rw [Manifest.resolve_ofTopLevel addressed_calledTower.byName, target, topLevel_calledTower]
    rfl
  have filePasses : (calledTower count).passesOf (calledTower count).services {}
      (.directory ⟨1⟩ ⟨"b"⟩) [.file ⟨0⟩] = [{ towerPass count with moving := [.file ⟨0⟩] }] := by
    rw [passesOf_file, Pass.ofWhole, Pass.ofFile, topLevel_calledTower]
    rfl
  obtain ⟨one, oneReturned⟩ := returns_calledTower [.file ⟨0⟩] filePasses
  obtain ⟨other, otherReturned⟩ := returns_calledTower [.decl ⟨0⟩] rfl
  exact ⟨one, other, checkMove_eq_ok_iff.mpr ⟨_, _, byPath, oneReturned⟩,
    checkMove_eq_ok_iff.mpr ⟨_, _, byName, otherReturned⟩,
    usages_calledTower inDecl notInFile oneReturned otherReturned⟩

/-- A class that moves into another can see what both inherit, if the class itself is named. And the
file around 256 nested functions is out of reach from the innermost. -/
theorem file_moves_otherwise :
    (family.Built ∧ family.InDecls ⟨1⟩ ∧ family.Addressed "b/Leaf.kt" ⟨1⟩ ∧ ∃ one other,
      family.checkMove family.services {} (.ofFile "b/Leaf.kt" (.existingDecl "c.Home")) = .ok one ∧
      family.checkMove family.services {}
          (.ofTopLevel family ⟨1⟩ (.existingDecl "c.Home")) = .ok other ∧
      one.report ≠ other.report) ∧
    (calledTower 255).Built ∧
      (∀ id ∈ (calledTower 255).refIds, (calledTower 255).Present ⟨0⟩ (.reference id)) ∧
      (calledTower 255).Addressed "a/Tower.kt" ⟨0⟩ ∧ ∃ one other,
        (calledTower 255).checkMove (calledTower 255).services {}
            (.ofFile "a/Tower.kt" (.directory "b" none)) = .ok one ∧
          (calledTower 255).checkMove (calledTower 255).services {}
              (.ofTopLevel (calledTower 255) ⟨0⟩ (.directory "b" none)) = .ok other ∧
          ⟨⟨0⟩, ⟨0⟩, true⟩ ∈ other.usagesRemaining ∧ ⟨⟨0⟩, ⟨0⟩, true⟩ ∉ one.usagesRemaining := by
  obtain ⟨byFile, byDecl⟩ := checkElements_family
  refine ⟨⟨built_family, inDecls_family, addressed_family, _, _,
    checkMove_eq_ok_iff.mpr ⟨_, _, rfl, byFile⟩, checkMove_eq_ok_iff.mpr ⟨_, _, rfl, byDecl⟩, ?_⟩,
    built_calledTower, present_calledTower, addressed_calledTower, checkMove_calledTower⟩
  decide

/-- In a package `Leaf` has no class around it, whether it is named or its file. -/
theorem file_moves_leaf :
    (family.Built ∧ family.InDecls ⟨1⟩ ∧ family.Addressed "b/Leaf.kt" ⟨1⟩) ∧
    family.checkMove family.services {} (.ofFile "b/Leaf.kt" (.directory "c" none)) =
      .ok secretLost ∧
    family.checkMove family.services {} (.ofTopLevel family ⟨1⟩ (.directory "c" none)) =
      .ok secretLost ∧
    ∃ target, Manifest.TargetEntry.resolve family (.directory "c" none) = .ok target ∧
      family.SaysSame ⟨1⟩ target secretLost secretLost := by
  have byFile : family.checkElements family.services {} [.file ⟨1⟩] (.directory ⟨2⟩ ⟨"c"⟩) =
      .ok secretLost := by decide +kernel
  have byDecl : family.checkElements family.services {} [.decl ⟨2⟩] (.directory ⟨2⟩ ⟨"c"⟩) =
      .ok secretLost := by decide +kernel
  have one : family.checkMove family.services {} (.ofFile "b/Leaf.kt" (.directory "c" none)) =
      .ok secretLost := checkMove_eq_ok_iff.mpr ⟨_, _, rfl, byFile⟩
  have other : family.checkMove family.services {}
      (.ofTopLevel family ⟨1⟩ (.directory "c" none)) = .ok secretLost :=
    checkMove_eq_ok_iff.mpr ⟨_, _, rfl, byDecl⟩
  exact ⟨⟨built_family, inDecls_family, addressed_family⟩, one, other,
    (file_moves_as_its_declarations built_family inDecls_family addressed_family _).2 _ _ one other⟩

end Project

end Relocation
