import Relocation.Proofs.Project.Scopes
set_option autoImplicit false

/-!
The sources that a module sees.

They are asked for in two ways. The scope of a module says what its code can refer to, and a file
says whether it sees a module whose declarations are used in it. Dependencies may go round in
circles; both walk along them and come to every module that can be reached. So both give the same
answer, but for test sources, which a scope holds and only test files of the same module see.
-/

namespace Relocation.Project

variable {p : Project} {module : ModuleId}

def IsJdk (p : Project) : SourceRoot → Prop
  | .module _ _ | .library _ => False
  | .sdk id => (p.sdk id).kind = .jdk

theorem contains_platformScope_iff {root : SourceRoot} :
    (p.platformScope module).contains root = true ↔
      (p.moduleScope module).contains root = true ∧
        ¬ ((p.module module).platform ≠ .jvm ∧ p.IsJdk root) := by
  unfold platformScope
  cases platform : (p.module module).platform == .jvm with
  | true => simp [eq_of_beq platform]
  | false =>
    have foreign : (p.module module).platform ≠ .jvm := ne_of_beq_false platform
    cases root <;> simp [ModuleScope.contains, IsJdk, foreign]

/-- What a file sees of a module depends on the module that the file belongs to. -/
theorem seesModule_eq {file : FileId} (belongs : p.moduleOfFile? file = some module)
    (target : ModuleId) (test : Bool) :
    p.seesModule file target test =
      if module = target then !test || p.isTestFile file
      else !test && (p.dependencyClosure module).contains target := by
  rw [seesModule, belongs]

theorem seesModule_production_iff {file : FileId} (belongs : p.moduleOfFile? file = some module)
    {target : ModuleId} : p.seesModule file target false = true ↔ p.Sees module target := by
  rw [seesModule_eq belongs, ← mem_dependencyClosure_iff]
  split
  next same =>
    subst same
    have itself : module ∈ p.dependencyClosure module :=
      mem_dependencyClosure_iff.mpr Relation.ReflTransGen.refl
    simp [itself]
  · simp

theorem seesModule_test_iff {file : FileId} (belongs : p.moduleOfFile? file = some module)
    {target : ModuleId} :
    p.seesModule file target true = true ↔ module = target ∧ p.isTestFile file = true := by
  rw [seesModule_eq belongs]
  split
  next same => simp [same]
  next different => simp [different]

/-- The scopes of a module hold what it reaches along dependencies, and its files see the same. -/
structure SeesExactly (p : Project) (module : ModuleId) : Prop where
  modules : ∀ home test,
    (p.moduleScope module).contains (.module home test) = true ↔ p.Sees module home
  libraries : ∀ library, (p.moduleScope module).contains (.library library) = true ↔
    ∃ home, p.Sees module home ∧ library ∈ (p.module home).libraries
  sdks : ∀ sdk, (p.moduleScope module).contains (.sdk sdk) = true ↔
    ∃ home, p.Sees module home ∧ sdk ∈ (p.module home).sdks
  platform : ∀ root, (p.platformScope module).contains root = true ↔
    (p.moduleScope module).contains root = true ∧
      ¬ ((p.module module).platform ≠ .jvm ∧ p.IsJdk root)
  production : ∀ file, p.moduleOfFile? file = some module → ∀ target test,
    p.seesModule file target false = (p.moduleScope module).contains (.module target test)
  tests : ∀ file, p.moduleOfFile? file = some module → ∀ target,
    p.seesModule file target true = true ↔ module = target ∧ p.isTestFile file = true

theorem module_scopes_exact (p : Project) (module : ModuleId) : p.SeesExactly module := by
  have modules (home : ModuleId) (test : Bool) :
      (p.moduleScope module).contains (.module home test) = true ↔ p.Sees module home := by
    rw [contains_moduleScope_iff]
    constructor
    · rintro ⟨_, sees, rfl⟩
      exact sees
    · intro sees
      exact ⟨home, sees, rfl⟩
  constructor
  · exact modules
  · intro library
    exact contains_moduleScope_iff
  · intro sdk
    exact contains_moduleScope_iff
  · intro root
    exact contains_platformScope_iff
  · intro file belongs target test
    rw [Bool.eq_iff_iff, modules]
    exact seesModule_production_iff belongs
  · intro file belongs target
    exact seesModule_test_iff belongs

end Relocation.Project
