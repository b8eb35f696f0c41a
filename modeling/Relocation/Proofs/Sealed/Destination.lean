import Relocation.Proofs.Project.Forest
import Relocation.Proofs.Sealed.Entry
set_option autoImplicit false

/-!
Members of a sealed hierarchy at the destination of a move.

A class counts as being there by its module, its directory and its package. The package is not always
the one that the moved declarations will belong to: for a directory it is the directory's own, while
the move may ask for another one. So a member in the package that is asked for may be overlooked, and
the message then says of this package that nobody is there. Where the two packages are the same, a
member at the destination keeps the conflict away.
-/

namespace Relocation

namespace Project

variable {p : Project} {module : ModuleId}

theorem hasPackage_of_mem_fileIds {file : FileId} (known : file ∈ p.fileIds)
    (rooted : p.moduleOfFile? file = some module) :
    p.hasPackage (p.packageOfFile file) module = true := by
  simp only [hasPackage, Bool.or_eq_true, List.any_eq_true, Bool.and_eq_true, beq_iff_eq]
  exact Or.inr ⟨file, known, rooted, rfl⟩

theorem hasPackage_of_mem_dirIds {id : DirId} (known : id ∈ p.dirIds)
    (rooted : (p.directory id).root.module? = some module) :
    p.hasPackage (p.directory id).package module = true := by
  have inside := (mem_dirIds p).mp known
  have listed : p.directory id ∈ p.directories := by
    simp [directory, Array.getD_eq_getD_getElem?, inside]
  simp only [hasPackage, Bool.or_eq_true, Array.any_eq_true', Bool.and_eq_true, beq_iff_eq]
  exact Or.inl ⟨_, listed, rooted, rfl⟩

end Project

def Target.IsThere (p : Project) : Target → Prop
  | .decl id => id ∈ p.declIds
  | .file id => id ∈ p.fileIds
  | .directory id _ | .newFile id _ _ => id ∈ p.dirIds

namespace Pass

variable (pass : Pass)

/-- The package by which classes are judged to be at the target. -/
def judgedPackage? : Option QualifiedName :=
  match pass.target with
  | .directory directory _ | .newFile directory _ _ =>
    some (pass.project.directory directory).package
  | target => target.package? pass.project

/-- A class lives in a file of the target directory, in the target module, and the package of the file
is the given one. -/
def LivesAtTarget (package : QualifiedName) (id : DeclId) : Prop :=
  ∃ file ∈ pass.project.fileOf? id, ∃ location ∈ pass.location?, ∃ module ∈ pass.targetModule?,
    (pass.project.file file).directory = location.inDirectory pass.project ∧
      pass.project.moduleOfFile? file = some module ∧ pass.project.packageOfFile file = package

/-- A walk starts at a class, some other member that it finds stays, and none of them lives at the
target, which is in a module, by the package that counts there. -/
def FindsNobody (id : DeclId) : Prop :=
  ∃ seen, (seen, id) ∈ pass.walkStarts [] pass.elements ∧
    (∃ other ∈ pass.othersFrom seen id, pass.isMoving (.decl other) = false) ∧
    (∃ module, pass.targetModule? = some module) ∧
    ∀ package, pass.judgedPackage? = some package →
      ∀ other ∈ pass.othersFrom seen id, ¬ pass.LivesAtTarget package other

/-- The target is no directory that is to take the moved declarations into a package other than its
own. -/
def AsksForOwnPackage : Prop :=
  ∀ directory package, (pass.target = .directory directory package ∨
      ∃ name, pass.target = .newFile directory package name) →
    (pass.project.directory directory).package = package

variable {pass}

theorem residence?_eq_some_iff {id : DeclId} {home : Residence} :
    pass.residence? id = some home ↔
      ∃ file ∈ pass.project.fileOf? id, pass.project.moduleOfFile? file = some home.module ∧
        pass.project.packageOfFile file = home.package ∧
        (pass.project.file file).directory = home.directory := by
  simp only [residence?, Option.bind_eq_bind, Option.bind_eq_some_iff, Option.pure_def,
    Option.some.injEq, Option.mem_def]
  constructor
  · rintro ⟨file, lies, module, rooted, rfl⟩
    exact ⟨file, lies, rooted, rfl, rfl⟩
  · rintro ⟨file, lies, rooted, named, within⟩
    exact ⟨file, lies, home.module, rooted, by rw [named, within]⟩

theorem targetResidence?_eq_some_iff {home : Residence} :
    pass.targetResidence? = some home ↔
      pass.targetModule? = some home.module ∧ pass.judgedPackage? = some home.package ∧
        ∃ location ∈ pass.location?, location.inDirectory pass.project = home.directory := by
  have judged : pass.targetResidence? = (do
      let module ← pass.targetModule?
      let package ← pass.judgedPackage?
      let location ← pass.location?
      return ⟨module, package, location.inDirectory pass.project⟩) := by
    unfold targetResidence? judgedPackage?
    cases pass.target <;> rfl
  rw [judged]
  simp only [Option.bind_eq_bind, Option.bind_eq_some_iff, Option.pure_def, Option.some.injEq,
    Option.mem_def]
  constructor
  · rintro ⟨module, rooted, package, named, location, located, rfl⟩
    exact ⟨rooted, named, location, located, rfl⟩
  · rintro ⟨rooted, named, location, located, within⟩
    exact ⟨_, rooted, _, named, location, located, by rw [within]⟩

theorem exists_targetResidence? {module : ModuleId} (rooted : pass.targetModule? = some module) :
    ∃ home, pass.targetResidence? = some home := by
  obtain ⟨location, located, -⟩ := Option.bind_eq_some_iff.mp rooted
  have judged : ∃ package, pass.judgedPackage? = some package := by
    unfold judgedPackage?
    cases aimed : pass.target with
    | directory directory package => exact ⟨_, rfl⟩
    | newFile directory package name => exact ⟨_, rfl⟩
    | file file => exact ⟨_, rfl⟩
    | decl owner =>
      rw [aimed] at located
      obtain ⟨file, home, -⟩ := Option.map_eq_some_iff.mp located
      exact ⟨_, Option.map_eq_some_iff.mpr ⟨file, home, rfl⟩⟩
  obtain ⟨package, named⟩ := judged
  exact ⟨⟨module, package, location.inDirectory pass.project⟩,
    targetResidence?_eq_some_iff.mpr ⟨rooted, named, location, located, rfl⟩⟩

theorem residence?_eq_target_iff {home : Residence}
    (aimed : pass.targetResidence? = some home) (id : DeclId) :
    pass.residence? id = some home ↔ pass.LivesAtTarget home.package id := by
  obtain ⟨rooted, -, location, located, within⟩ := targetResidence?_eq_some_iff.mp aimed
  rw [residence?_eq_some_iff]
  constructor
  · rintro ⟨file, lies, sameModule, samePackage, sameDirectory⟩
    exact ⟨file, lies, location, located, home.module, rooted, sameDirectory.trans within.symm,
      sameModule, samePackage⟩
  · rintro ⟨file, lies, place, placed, module, targeted, inDirectory, inModule, inPackage⟩
    cases Option.some.inj (located.symm.trans placed)
    cases Option.some.inj (rooted.symm.trans targeted)
    exact ⟨file, lies, inModule, inPackage, inDirectory.trans within⟩

/-- The package of a class that is there needs no looking up in the module of the class. -/
theorem hasPackage_of_residence? (built : pass.project.Built) {id : DeclId}
    (known : id ∈ pass.project.declIds) {home : Residence} (lives : pass.residence? id = some home) :
    pass.project.hasPackage home.package home.module = true := by
  obtain ⟨file, lies, rooted, named, -⟩ := residence?_eq_some_iff.mp lives
  rw [← named]
  exact Project.hasPackage_of_mem_fileIds (built.mem_fileIds_of_fileOf? known lies) rooted

/-- Nor does the package that counts at a target that is there. -/
theorem hasPackage_of_targetResidence? (built : pass.project.Built)
    (there : pass.target.IsThere pass.project) {home : Residence}
    (aimed : pass.targetResidence? = some home) :
    pass.project.hasPackage home.package home.module = true := by
  obtain ⟨rooted, judged, -⟩ := targetResidence?_eq_some_iff.mp aimed
  unfold targetModule? at rooted
  unfold judgedPackage? at judged
  cases target : pass.target with
  | decl owner =>
    rw [target] at there rooted judged
    obtain ⟨file, lies, named⟩ := Option.map_eq_some_iff.mp judged
    rw [Target.module?, Target.location?, lies] at rooted
    rw [← named]
    exact Project.hasPackage_of_mem_fileIds (built.mem_fileIds_of_fileOf? there lies) rooted
  | file file =>
    rw [target] at there rooted judged
    rw [← Option.some.inj judged]
    exact Project.hasPackage_of_mem_fileIds there rooted
  | directory directory package | newFile directory package name =>
    rw [target] at there rooted judged
    rw [← Option.some.inj judged]
    exact Project.hasPackage_of_mem_dirIds there rooted

theorem exists_code_iff {id : DeclId} {others : List DeclId} :
    (∃ conflict, conflict.code = 1203 ∧ pass.relaxedConflict? id others = some conflict) ↔
      ∃ home, pass.targetResidence? = some home ∧
        ∀ other ∈ others, pass.residence? other ≠ some home := by
  unfold relaxedConflict?
  cases aimed : pass.targetResidence? with
  | none => simp
  | some home =>
    simp only [Option.bind_eq_bind, Option.bind_some, Option.some.injEq, exists_eq_left']
    split
    next away =>
      refine iff_of_true ⟨_, ?_, rfl⟩ (by simpa using away)
      rfl
    next here =>
      refine iff_of_false ?_ (by simpa using here)
      rintro ⟨conflict, code, found⟩
      obtain ⟨source, -, found⟩ := Option.bind_eq_some_iff.mp found
      split at found
      · cases found
      · cases found
        cases code

theorem exists_targetResidence?_iff {others : List DeclId} :
    (∃ home, pass.targetResidence? = some home ∧
        ∀ other ∈ others, pass.residence? other ≠ some home) ↔
      (∃ module, pass.targetModule? = some module) ∧
        ∀ package, pass.judgedPackage? = some package →
          ∀ other ∈ others, ¬ pass.LivesAtTarget package other := by
  constructor
  · rintro ⟨home, aimed, nobody⟩
    obtain ⟨rooted, named, -⟩ := targetResidence?_eq_some_iff.mp aimed
    refine ⟨⟨_, rooted⟩, fun package judged other listed lives => ?_⟩
    cases Option.some.inj (named.symm.trans judged)
    exact nobody other listed ((residence?_eq_target_iff aimed other).mpr lives)
  · rintro ⟨⟨module, rooted⟩, nobody⟩
    obtain ⟨home, aimed⟩ := exists_targetResidence? rooted
    obtain ⟨-, named, -⟩ := targetResidence?_eq_some_iff.mp aimed
    exact ⟨home, aimed, fun other listed resides => nobody home.package named other listed
      ((residence?_eq_target_iff aimed other).mp resides)⟩

theorem findsTorn_absent_iff (relaxed : pass.options.language.sealedInheritorsInSamePackage = true)
    {findings : List Finding} (returned : pass.hierarchyFindings = .ok findings) (id : DeclId) :
    (∃ conflict, conflict.code = 1203 ∧ pass.FindsTorn (.decl id, conflict)) ↔
      pass.FindsNobody id := by
  have found (conflict : Conflict) : pass.FindsTorn (.decl id, conflict) ↔
      ∃ start ∈ pass.walkStarts [] pass.elements,
        (.decl id, conflict) ∈ pass.startFindings start := by
    rw [← mem_findings_iff relaxed returned]
    simp [FindsTorn, returned]
  constructor
  · rintro ⟨conflict, code, torn⟩
    obtain ⟨⟨seen, entry⟩, started, member⟩ := (found conflict).mp torn
    obtain ⟨key, staying, conflicting⟩ := pass.mem_startFindings.mp member
    cases key
    have absent := exists_code_iff.mp ⟨conflict, code, conflicting⟩
    exact ⟨seen, started, staying, exists_targetResidence?_iff.mp absent⟩
  · rintro ⟨seen, started, staying, nobody⟩
    obtain ⟨conflict, code, conflicting⟩ :=
      exists_code_iff.mpr (exists_targetResidence?_iff.mpr nobody)
    have member : (.decl id, conflict) ∈ pass.startFindings (seen, id) :=
      pass.mem_startFindings.mpr ⟨rfl, staying, conflicting⟩
    exact ⟨conflict, code, (found conflict).mpr ⟨_, started, member⟩⟩

/-- A member of the hierarchy at the target is found by the walk that starts in the hierarchy. -/
theorem not_findsNobody (search : pass.services = pass.project.services) {id other : DeclId}
    (walkable : pass.project.Walkable id) (companion : pass.project.Companion id other)
    {package : QualifiedName} (judged : pass.judgedPackage? = some package)
    (lives : pass.LivesAtTarget package other) : ¬ pass.FindsNobody id := by
  rintro ⟨seen, started, -, -, nobody⟩
  have finds := finds_of_mem_walkStarts search walkable started
  exact nobody package judged other (finds.mem_othersFrom_iff.mpr companion) lives

/-- The package that counts at a target is the one that is asked for, but for a directory of another
package. -/
theorem judgedPackage?_eq_iff :
    pass.judgedPackage? = pass.target.package? pass.project ↔ pass.AsksForOwnPackage := by
  unfold judgedPackage? AsksForOwnPackage
  cases pass.target with
  | decl owner => simp
  | file file => simp
  | directory directory package => simp [Target.package?]
  | newFile directory package name => simp [Target.package?]

/-- A pass reports that nobody of a hierarchy is at the target exactly if its walk finds nobody in the
package that counts there. So a member in the package that the moved declarations will belong to keeps
the conflict away, unless a directory is to take them into a package that is not its own. -/
theorem sibling_at_destination
    (relaxed : pass.options.language.sealedInheritorsInSamePackage = true)
    {before after : CheckState} (returned : pass.check before = .ok after) (id : DeclId) :
    (∀ finding : Finding, finding.2.code = 1203 →
      (finding ∈ after.report.findings ↔
        finding ∈ before.report.findings ∨ pass.FindsTorn finding)) ∧
    ((∃ conflict, conflict.code = 1203 ∧ pass.FindsTorn (.decl id, conflict)) ↔
      pass.FindsNobody id) ∧
    (pass.services = pass.project.services → pass.project.Walkable id → pass.AsksForOwnPackage →
      ∀ package, pass.target.package? pass.project = some package →
        ∀ other, pass.project.Companion id other → pass.LivesAtTarget package other →
          ¬ ∃ conflict, conflict.code = 1203 ∧ pass.FindsTorn (.decl id, conflict)) := by
  obtain ⟨findings, hierarchical⟩ := (pass.check_returns_iff before).mp ⟨after, returned⟩
  have exact := findsTorn_absent_iff relaxed hierarchical id
  refine ⟨fun finding code => mem_findings_of_check_torn returned (by omega), exact, ?_⟩
  intro search walkable own package asked other companion lives
  have judged : pass.judgedPackage? = some package := (judgedPackage?_eq_iff.mpr own).trans asked
  rw [exact]
  exact not_findsNobody search walkable companion judged lives

/-- `Circle` is a shape, and lies in directory `b` with a file of package `c`. -/
def astrayCalls : List BuilderCall := [
  .module "core" .jvm, .directory "a" (.module ⟨0⟩ false) ⟨"a"⟩,
  .directory "b" (.module ⟨0⟩ false) ⟨"b"⟩,
  .file ⟨0⟩ "Shape.kt" none, .file ⟨1⟩ "Circle.kt" (some ⟨"c"⟩),
  .decl { name := "Shape", kind := .plainClass, parent := .file ⟨0⟩, modality := .sealed },
  .internedType (.applied ⟨0⟩ [] false),
  .decl { name := "Circle", kind := .plainClass, parent := .file ⟨1⟩, supertypes := [⟨2⟩] }]

def astray : Project := (Project.run? {} astrayCalls).getD {}

def shapeInto (target : Target) : Pass := .ofDecls astray astray.services {} target [⟨0⟩]

def circleOverlooked : Report := ⟨[(.decl ⟨0⟩, [⟨1203, .error,
  "Sealed hierarchy of 'Shape' would be broken: none of its members reside in package 'c' of " ++
    "module 'core'. Hierarchy members: a.Shape, c.Circle"⟩])]⟩

theorem plainHierarchies_astray : astray.PlainHierarchies where
  fromSource := by decide +kernel
  oneSuperclass := by decide +kernel
  sealedKind := by decide +kernel
  irreflexive := by decide +kernel
  limited := Project.length_le_of_size_le (by decide +kernel)

theorem companion_astray : astray.Companion ⟨0⟩ ⟨1⟩ where
  same := .of_linked (by decide +kernel)
  source := by decide +kernel
  ne := by decide

theorem hierarchyFindings_shapeInto (target : Target) :
    (shapeInto target).hierarchyFindings = .ok ((shapeInto target).startFindings ([], ⟨0⟩)) ∧
      (shapeInto target).othersFrom [] ⟨0⟩ = [⟨1⟩] := by
  -- The walk does not ask for the target.
  have walked : (shapeInto (.file ⟨1⟩)).othersFrom [] ⟨0⟩ = [⟨1⟩] ∧
      (shapeInto (.file ⟨1⟩)).inHierarchy ⟨0⟩ = true := by decide +kernel
  obtain ⟨others, joined⟩ : (shapeInto target).othersFrom [] ⟨0⟩ = [⟨1⟩] ∧
      (shapeInto target).inHierarchy ⟨0⟩ = true := walked
  have walks : (shapeInto target).walkStarts [] (shapeInto target).elements = [([], ⟨0⟩)] :=
    walkStarts_of_new [] rfl List.not_mem_nil joined
  have found := hierarchyFindings_of_starts rfl walks (by simp [others])
  rw [List.flatMap_singleton] at found
  exact ⟨found, others⟩

/-- `Shape` goes into a new file of directory `b` and of package `c`, where `Circle` lives. By the
conflict that is reported, nobody of the hierarchy does. -/
theorem sibling_overlooked :
    astray.Built ∧ astray.PlainHierarchies ∧ astray.Companion ⟨0⟩ ⟨1⟩ ∧
      ∀ target ∈ ([.directory ⟨1⟩ ⟨"c"⟩, .newFile ⟨1⟩ ⟨"c"⟩ "New.kt"] : List Target),
        target.package? astray = some ⟨"c"⟩ ∧ (shapeInto target).LivesAtTarget ⟨"c"⟩ ⟨1⟩ ∧
          (shapeInto target).check {} = .ok { report := circleOverlooked } := by
  refine ⟨⟨astrayCalls, rfl⟩, plainHierarchies_astray, companion_astray, ?_⟩
  intro target listed
  obtain ⟨found, others⟩ := hierarchyFindings_shapeInto target
  unfold check
  rw [found, startFindings, others]
  rcases List.mem_pair.mp listed with rfl | rfl
  · exact ⟨rfl, ⟨⟨1⟩, rfl, .directory ⟨1⟩, rfl, ⟨0⟩, rfl, rfl, rfl, rfl⟩, by decide +kernel⟩
  · exact ⟨rfl, ⟨⟨1⟩, rfl, .directory ⟨1⟩, rfl, ⟨0⟩, rfl, rfl, rfl, rfl⟩, by decide +kernel⟩

/-- The file of `Circle` is in package `c` itself, and `Shape` may move there. -/
theorem sibling_at_destination_astray :
    (shapeInto (.file ⟨1⟩)).check {} = .ok {} ∧ (shapeInto (.file ⟨1⟩)).AsksForOwnPackage ∧
      (shapeInto (.file ⟨1⟩)).LivesAtTarget ⟨"c"⟩ ⟨1⟩ ∧
      ¬ ∃ conflict, conflict.code = 1203 ∧
        (shapeInto (.file ⟨1⟩)).FindsTorn (.decl ⟨0⟩, conflict) := by
  obtain ⟨found, others⟩ := hierarchyFindings_shapeInto (.file ⟨1⟩)
  have returned : (shapeInto (.file ⟨1⟩)).check {} = .ok {} := by
    unfold check
    rw [found, startFindings, others]
    decide +kernel
  have own : (shapeInto (.file ⟨1⟩)).AsksForOwnPackage := judgedPackage?_eq_iff.mp rfl
  have lives : (shapeInto (.file ⟨1⟩)).LivesAtTarget ⟨"c"⟩ ⟨1⟩ :=
    ⟨⟨1⟩, rfl, .file ⟨1⟩, rfl, ⟨0⟩, rfl, rfl, rfl, rfl⟩
  obtain ⟨-, -, kept⟩ := sibling_at_destination rfl returned ⟨0⟩
  exact ⟨returned, own, lives, kept rfl (plainHierarchies_astray.walkable ⟨0⟩) own ⟨"c"⟩ rfl ⟨1⟩
    companion_astray lives⟩

end Pass

end Relocation
