import Relocation.Proofs.Check.Run
import Relocation.Proofs.Project.Built
import Relocation.Proofs.Project.Overrides
set_option autoImplicit false

/-!
References in moved code to declarations of the project that the module of the target cannot reach.

Such a declaration is not in the scope of the target itself, so the judgement is left to the members
that it overrides. One of them that belongs to the project has to lie in the scope. One of a library
may also be found by an import, but what is imported is the declaration that the reference names, and
if that cannot be imported at all, the import is taken to succeed.
-/

namespace Relocation

namespace Project

variable (p : Project)

/-- A declaration lies in sources that a module resolves names against. -/
def InScope (module : ModuleId) (id : DeclId) : Prop :=
  ∃ root, p.rootOf? id = some root ∧ (p.platformScope module).contains root = true

instance (module : ModuleId) (id : DeclId) : Decidable (p.InScope module id) :=
  decidable_of_iff ((p.rootOf? id).any (p.platformScope module).contains = true)
    (Option.any_eq_true _ _)

variable {p}

theorem InScope.mem_dependencyClosure {module home : ModuleId} {id : DeclId}
    (inScope : p.InScope module id) (located : p.moduleOf? id = some home) :
    home ∈ p.dependencyClosure module := by
  obtain ⟨root, rooted, contained⟩ := inScope
  rw [moduleOf?, rooted, Option.bind_some] at located
  cases root with
  | library => cases located
  | sdk => cases located
  | module other test =>
    cases located
    have modules : (p.platformScope module).modules = p.dependencyClosure module := by
      unfold platformScope
      dsimp only
      split <;> rfl
    rw [← modules]
    exact List.contains_iff_mem.mp contained

theorem isInProject_of_module {home : ModuleId} {id : DeclId}
    (located : p.moduleOf? id = some home) : p.isInProject id = true := by
  obtain ⟨root, rooted, ofModule⟩ := Option.bind_eq_some_iff.mp located
  rw [isInProject, rooted]
  cases root with
  | module => rfl
  | library => cases ofModule
  | sdk => cases ofModule

theorem eq_qualifiedName_of_importableName? {id : DeclId} {name : QualifiedName}
    (importable : p.importableName? id = some name) : name = p.qualifiedName (p.importable id) := by
  unfold importableName? at importable
  dsimp only at importable
  obtain ⟨-, same⟩ := Option.ite_none_right_eq_some.mp importable
  exact (Option.some.inj same).symm

theorem resolveImport_eq_nil {module : ModuleId} {name : QualifiedName}
    (free : ∀ other ∈ p.declIds, p.InScope module other → p.qualifiedName other ≠ name) :
    p.resolveImport name module = [] := by
  apply List.filter_eq_nil_iff.mpr
  intro other known found
  simp only [Bool.and_eq_true, beq_iff_eq, Option.any_eq_true] at found
  obtain ⟨⟨⟨root, rooted, contained⟩, itself⟩, importable⟩ := found
  have named := eq_qualifiedName_of_importableName? importable
  rw [itself] at named
  exact free other known ⟨root, rooted, contained⟩ named.symm

theorem exists_owner_of_mem_referencesWithin {id : RefId} {outer : DeclId}
    (within : id ∈ p.referencesWithin outer) : ∃ owner, (p.reference id).owner = some owner := by
  have ancestor := (List.mem_filter.mp within).2
  apply Option.ne_none_iff_exists'.mp
  intro ownerless
  simp [isAncestor, chainLimit, liesWithin, around?, ownerless] at ancestor

end Project

namespace Pass

variable (pass : Pass)

/-- A reference in moved code leads to a declaration of the project beyond all that the module of
the target depends on. -/
structure LeavesReach (module : ModuleId) (moved : DeclId) (id : RefId) (named : DeclId) :
    Prop where
  walked : moved ∈ pass.walked
  elsewhere : pass.project.moduleOf? moved ≠ some module
  within : id ∈ pass.project.referencesWithin moved
  resolved : (pass.project.reference id).target = some named
  notBuiltin : (pass.project.decl named).flags.builtin = false
  notTypeParameter : (pass.project.decl named).kind ≠ .typeParameter
  stays : pass.isMoving (.decl named) = false
  beyond : ∃ home, pass.project.moduleOf? named = some home ∧
    home ∉ pass.project.dependencyClosure module

/-- With an overridden member that lies in the scope, or outside the project with an import that
finds `named`, a reference to `named` passes. -/
def LetsPass (module : ModuleId) (named top : DeclId) : Prop :=
  pass.project.InScope module top ∨
    pass.project.isInProject top = false ∧ pass.importFinds named module = true

/-- Nothing that a declaration overrides lets a reference to it pass. -/
def OutOfReach (module : ModuleId) (named : DeclId) : Prop :=
  ∀ top, pass.project.Overridden named top → ¬ pass.LetsPass module named top

def Unnameable (named : DeclId) (findings : List Finding) : Prop :=
  ∃ finding ∈ findings, finding.1 = .decl named ∧ finding.2.code = 1003

instance (named : DeclId) (findings : List Finding) : Decidable (Unnameable named findings) := by
  unfold Unnameable
  infer_instance

variable {pass}

theorem isInTargetScope_iff {module : ModuleId} {named element : DeclId} :
    pass.isInTargetScope module (pass.project.platformScope module) named element = true ↔
      pass.LetsPass module named element := by
  simp [isInTargetScope, LetsPass, Project.InScope, Option.any_eq_true]

theorem isNameable_eq_false_iff {module : ModuleId} {moved named : DeclId} {id : RefId}
    (leaves : pass.LeavesReach module moved id named) :
    pass.isNameable module (pass.project.platformScope module) named = false ↔
      pass.OutOfReach module named := by
  obtain ⟨home, located, outside⟩ := leaves.beyond
  -- By itself the declaration does not pass, for it belongs to the project.
  have unseen : ¬ pass.LetsPass module named named := by
    rintro (inScope | ⟨foreign, -⟩)
    · exact outside (inScope.mem_dependencyClosure located)
    · rw [Project.isInProject_of_module located] at foreign
      cases foreign
  rw [← Bool.not_eq_true, isNameable, Bool.or_eq_true, Bool.or_eq_true, isInTargetScope_iff,
    beq_iff_eq, List.any_eq_true]
  simp only [Project.mem_deepestOverridden_iff, isInTargetScope_iff, unseen,
    leaves.notTypeParameter, or_self, false_or, not_exists, not_and]
  rfl

theorem importFinds_eq_false (searched : pass.services = pass.project.services)
    {module : ModuleId} {named : DeclId} {name : QualifiedName}
    (importable : pass.project.importableName? named = some name)
    (free : ∀ other ∈ pass.project.declIds, pass.project.InScope module other →
      pass.project.qualifiedName other ≠ name) :
    pass.importFinds named module = false := by
  have nothing : pass.services.resolveImport name module = [] := by
    rw [searched]
    exact Project.resolveImport_eq_nil free
  simp [importFinds, importable, nothing]

/-- A declaration is reported by the detector only if it is out of reach. -/
theorem outOfReach_of_mem_referencesOutOfScope {module : ModuleId} {moved named : DeclId}
    {id : RefId} (targeted : pass.targetModule? = some module)
    (leaves : pass.LeavesReach module moved id named) {reported : RefId × Finding}
    (found : reported ∈ pass.referencesOutOfScope) (keyed : reported.2.1 = .decl named) :
    pass.OutOfReach module named := by
  obtain ⟨other, alsoTargeted, _, -, -, _, -, result⟩ := pass.mem_referencesOutOfScope.mp found
  cases targeted.symm.trans alsoTargeted
  obtain ⟨target, _, -, -, -, -, unnameable, rfl⟩ :=
    pass.referenceOutOfScope?_eq_some_iff.mp result
  cases keyed
  exact (isNameable_eq_false_iff leaves).mp unnameable

theorem LeavesReach.reported {module : ModuleId} {moved named : DeclId} {id : RefId}
    (leaves : pass.LeavesReach module moved id named)
    (targeted : pass.targetModule? = some module) (unreached : pass.OutOfReach module named) :
    ∃ conflict, (id, .decl named, conflict) ∈ pass.referencesOutOfScope ∧
      conflict.code = 1003 := by
  obtain ⟨owner, owned⟩ := Project.exists_owner_of_mem_referencesWithin leaves.within
  have found := pass.referenceOutOfScope?_eq_some_iff.mpr ⟨named, owner, leaves.resolved, owned,
    leaves.notBuiltin, leaves.stays, (isNameable_eq_false_iff leaves).mpr unreached, rfl⟩
  exact ⟨_, pass.mem_referencesOutOfScope.mpr
    ⟨module, targeted, moved, leaves.walked, leaves.elsewhere, id, leaves.within, found⟩, rfl⟩

theorem LeavesReach.unnameable_iff {module : ModuleId} {moved named : DeclId} {id : RefId}
    (leaves : pass.LeavesReach module moved id named)
    (targeted : pass.targetModule? = some module) {external internal : List Usage}
    {after : CheckState} (returned : pass.check { external, internal } = .ok after) :
    Unnameable named after.report.findings ↔ pass.OutOfReach module named := by
  constructor
  · rintro ⟨finding, listed, keyed, code⟩
    rcases (mem_findings_of_check_outOfScope returned code).mp listed with early | detected
    · cases early
    · obtain ⟨reported, found, rfl⟩ := detected
      exact outOfReach_of_mem_referencesOutOfScope targeted leaves found keyed
  · intro unreached
    obtain ⟨conflict, found, code⟩ := leaves.reported targeted unreached
    have listed := (mem_findings_of_check_outOfScope returned code).mpr (Or.inr ⟨_, found, rfl⟩)
    exact ⟨_, listed, rfl, code⟩

/-- Members of the project pass in the scope only. -/
theorem outOfReach_of_inProject {module : ModuleId} {named : DeclId}
    (outside : ∀ top, pass.project.Overridden named top → ¬ pass.project.InScope module top)
    (ofProject : ∀ top, pass.project.Overridden named top → pass.project.isInProject top = true) :
    pass.OutOfReach module named := by
  rintro top overridden (inScope | ⟨foreign, -⟩)
  · exact outside top overridden inScope
  · rw [ofProject top overridden] at foreign
    cases foreign

/-- Members of a library do not pass either if the name that is imported is free. -/
theorem outOfReach_of_free (searched : pass.services = pass.project.services) {module : ModuleId}
    {named : DeclId} {name : QualifiedName}
    (outside : ∀ top, pass.project.Overridden named top → ¬ pass.project.InScope module top)
    (importable : pass.project.importableName? named = some name)
    (free : ∀ other ∈ pass.project.declIds, pass.project.InScope module other →
      pass.project.qualifiedName other ≠ name) :
    pass.OutOfReach module named := by
  rintro top overridden (inScope | ⟨-, finds⟩)
  · exact outside top overridden inScope
  · rw [importFinds_eq_false searched importable free] at finds
    cases finds

/-- What no import can name is in reach as soon as it overrides a member of a library. -/
theorem not_outOfReach_of_library {module : ModuleId} {named top : DeclId}
    (overridden : pass.project.Overridden named top)
    (foreign : pass.project.isInProject top = false)
    (unimportable : pass.project.importableName? named = none) :
    ¬ pass.OutOfReach module named := by
  intro unreached
  apply unreached top overridden
  exact Or.inr ⟨foreign, by simp [importFinds, unimportable]⟩

/-- A reference that leaves the reach of the target is reported exactly if no overridden member lets
it pass, by the detector and in the report of every run from an empty one. If all overridden members
are out of the scope, it is reported when they belong to the project, or when what it names can be
imported and nothing in the scope has the name. It is not when one of them is of a library and what it
names cannot be imported. -/
theorem reported_iff_outOfReach (pass : Pass) (searched : pass.services = pass.project.services)
    {module : ModuleId} {moved named : DeclId} {id : RefId}
    (targeted : pass.targetModule? = some module)
    (leaves : pass.LeavesReach module moved id named) :
    ((∃ conflict, (id, .decl named, conflict) ∈ pass.referencesOutOfScope ∧
        conflict.code = 1003) ↔ pass.OutOfReach module named) ∧
    (∀ external internal after, pass.check { external, internal } = .ok after →
      (Unnameable named after.report.findings ↔ pass.OutOfReach module named)) ∧
    ((∀ top, pass.project.Overridden named top → ¬ pass.project.InScope module top) →
      (∀ top, pass.project.Overridden named top → pass.project.isInProject top = true) ∨
        (∃ name, pass.project.importableName? named = some name ∧
          ∀ other ∈ pass.project.declIds, pass.project.InScope module other →
            pass.project.qualifiedName other ≠ name) →
      pass.OutOfReach module named) ∧
    ((∃ top, pass.project.Overridden named top ∧ pass.project.isInProject top = false) →
      pass.project.importableName? named = none → ¬ pass.OutOfReach module named) := by
  refine ⟨⟨?_, leaves.reported targeted⟩, ?_, ?_, ?_⟩
  · rintro ⟨conflict, found, -⟩
    exact outOfReach_of_mem_referencesOutOfScope targeted leaves found rfl
  · intro external internal after returned
    exact leaves.unnameable_iff targeted returned
  · rintro outside (ofProject | ⟨name, importable, free⟩)
    · exact outOfReach_of_inProject outside ofProject
    · exact outOfReach_of_free searched outside importable free
  · rintro ⟨top, overridden, foreign⟩ unimportable
    exact not_outOfReach_of_library overridden foreign unimportable

end Pass

/-- In module `core`, `Impl` implements `Task` of a library and `Job` of the project, and `errand`
calls what it overrides of both. Module `other` has neither the library nor `core`. -/
def errandsCalls : List BuilderCall := [
  .library "runtime" .jvm, .module "core" .jvm, .module "other" .jvm, .moduleLibrary ⟨0⟩ ⟨0⟩,
  .directory "runtime/r" (.library ⟨0⟩) ⟨"r"⟩, .directory "a" (.module ⟨0⟩ false) ⟨"a"⟩,
  .directory "b" (.module ⟨1⟩ false) ⟨"b"⟩,
  .file ⟨0⟩ "Task.kt" none, .file ⟨1⟩ "Impl.kt" none, .file ⟨1⟩ "Errand.kt" none,
  .file ⟨2⟩ "Spare.kt" none,
  .decl { name := "Task", kind := .interface, parent := .file ⟨0⟩ },
  .decl { name := "run", kind := .function, parent := .decl ⟨0⟩ },
  .decl { name := "Job", kind := .interface, parent := .file ⟨1⟩ },
  .decl { name := "work", kind := .function, parent := .decl ⟨2⟩ },
  .decl { name := "Impl", kind := .plainClass, parent := .file ⟨1⟩ },
  .internedType (.applied ⟨0⟩ [] false), .supertype ⟨4⟩ ⟨2⟩,
  .internedType (.applied ⟨2⟩ [] false), .supertype ⟨4⟩ ⟨3⟩,
  .decl { name := "run", kind := .function, parent := .decl ⟨4⟩ },
  .decl { name := "work", kind := .function, parent := .decl ⟨4⟩ },
  .decl { name := "errand", kind := .function, parent := .file ⟨2⟩ },
  .decl { name := "spare", kind := .function, parent := .file ⟨3⟩ },
  .overridden ⟨5⟩ ⟨1⟩, .overridden ⟨6⟩ ⟨3⟩, .referenceFrom ⟨7⟩ ⟨5⟩ {}, .referenceFrom ⟨7⟩ ⟨6⟩ {}]

def errands : Project := (Project.run? {} errandsCalls).getD {}

def moveErrand : Pass := .ofDecls errands errands.services {} (.directory ⟨2⟩ ⟨"b"⟩) [⟨7⟩]

theorem leavesReach_errand :
    moveErrand.LeavesReach ⟨1⟩ ⟨7⟩ ⟨0⟩ ⟨5⟩ ∧ moveErrand.LeavesReach ⟨1⟩ ⟨7⟩ ⟨1⟩ ⟨6⟩ := by
  constructor <;> exact {
    walked := List.mem_cons_self
    elsewhere := by decide +kernel
    within := by decide +kernel
    resolved := rfl
    notBuiltin := rfl
    notTypeParameter := by decide +kernel
    stays := by decide +kernel
    beyond := ⟨⟨0⟩, rfl, by decide +kernel⟩ }

theorem check_moveErrand : moveErrand.check {} = .ok { report := ⟨[(.decl ⟨6⟩, [⟨1003, .error,
    "Function work(), referenced in function errand(), will not be accessible in module other"⟩])]⟩
    } := by
  decide +kernel

/-- `work` overrides a member of `Job`, which belongs to the project and is not in sight of
`other`. -/
theorem work_reported :
    (moveErrand.services = errands.services ∧ moveErrand.targetModule? = some ⟨1⟩) ∧
      moveErrand.LeavesReach ⟨1⟩ ⟨7⟩ ⟨1⟩ ⟨6⟩ ∧ moveErrand.OutOfReach ⟨1⟩ ⟨6⟩ ∧
      ∃ after, moveErrand.check {} = .ok after ∧ Pass.Unnameable ⟨6⟩ after.report.findings := by
  have leaves := leavesReach_errand.2
  obtain ⟨-, reports, reached, -⟩ := Pass.reported_iff_outOfReach moveErrand rfl rfl leaves
  have tops : errands.deepestOverridden ⟨6⟩ = [⟨3⟩] := by decide +kernel
  have top {id : DeclId} (overridden : errands.Overridden ⟨6⟩ id) : id = ⟨3⟩ := by
    rw [← Project.mem_deepestOverridden_iff, tops] at overridden
    exact List.mem_singleton.mp overridden
  have unreached : moveErrand.OutOfReach ⟨1⟩ ⟨6⟩ := by
    apply reached
    · intro id overridden
      cases top overridden
      decide +kernel
    · apply Or.inl
      intro id overridden
      cases top overridden
      decide +kernel
  exact ⟨⟨rfl, rfl⟩, leaves, unreached, _, check_moveErrand,
    (reports [] [] _ check_moveErrand).mpr unreached⟩

/-- `run` overrides a member of a library. It is a member of a class, which no import can name, so
it passes, although nothing that `other` sees is a `Task`. -/
theorem run_not_reported :
    (errands.Built ∧ moveErrand.services = errands.services ∧
      moveErrand.targetModule? = some ⟨1⟩) ∧
    moveErrand.LeavesReach ⟨1⟩ ⟨7⟩ ⟨0⟩ ⟨5⟩ ∧
    (∀ top, errands.Overridden ⟨5⟩ top → ¬ errands.InScope ⟨1⟩ top ∧
      ∀ other ∈ errands.declIds, errands.InScope ⟨1⟩ other →
        errands.qualifiedName other ≠ errands.qualifiedName top) ∧
    ∃ after, moveErrand.check {} = .ok after ∧ ¬ Pass.Unnameable ⟨5⟩ after.report.findings := by
  have tops : errands.deepestOverridden ⟨5⟩ = [⟨1⟩] := by decide +kernel
  refine ⟨⟨⟨errandsCalls, rfl⟩, rfl, rfl⟩, leavesReach_errand.1, ?_, _, check_moveErrand, by decide⟩
  intro top overridden
  rw [← Project.mem_deepestOverridden_iff, tops] at overridden
  cases List.mem_singleton.mp overridden
  decide +kernel

end Relocation
