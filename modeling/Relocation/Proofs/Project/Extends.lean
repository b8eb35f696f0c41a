import Relocation.Proofs.Project.Built
set_option autoImplicit false

/-!
Projects that grow call by call. Calls of the builder never take an entry away, so an identifier
that has been handed out stands for the same entry ever after.
-/

namespace Relocation.Project

/-- Calls of the builder that do not fail lead from one project to the other. -/
def Extends (p q : Project) : Prop := ∃ calls, p.run? calls = some q

variable {p q r : Project}

namespace Extends

theorem refl (p : Project) : p.Extends p := ⟨[], rfl⟩

theorem trans (first : p.Extends q) (second : q.Extends r) : p.Extends r := by
  obtain ⟨calls, made⟩ := first
  obtain ⟨more, further⟩ := second
  refine ⟨calls ++ more, ?_⟩
  simp only [run?] at made further
  simp [run?, List.foldlM_append, made, further]

theorem call (call : BuilderCall) (ready : call.isReady p = true) :
    p.Extends (call.perform p) := by
  refine ⟨[call], ?_⟩
  simp [run?, BuilderCall.next?, ready]

theorem addDecl {data : Declaration} (bare : data.members = #[]) (offered : p.Offers data.parent) :
    p.Extends (p.addDecl data) := by
  have ready : (BuilderCall.decl data).isReady p = true := by
    cases parent : data.parent with
    | file home =>
      rw [parent] at offered
      simpa [BuilderCall.isReady, parent, Offers] using offered
    | decl owner =>
      rw [parent] at offered
      simpa [BuilderCall.isReady, parent, Offers] using offered
  have same : (BuilderCall.decl data).perform p = p.addDecl data := by
    unfold BuilderCall.perform
    rw [← bare]
  exact same ▸ Extends.call (.decl data) ready

theorem built (extension : p.Extends q) (built : p.Built) : q.Built :=
  Extends.trans (p := {}) built extension

end Extends

structure NoLonger (p q : Project) : Prop where
  modules : p.modules.size ≤ q.modules.size
  directories : p.directories.size ≤ q.directories.size
  files : p.files.size ≤ q.files.size
  decls : p.decls.size ≤ q.decls.size

theorem NoLonger.refl (p : Project) : p.NoLonger p :=
  ⟨Nat.le_refl _, Nat.le_refl _, Nat.le_refl _, Nat.le_refl _⟩

theorem NoLonger.trans (first : p.NoLonger q) (second : q.NoLonger r) : p.NoLonger r where
  modules := Nat.le_trans first.modules second.modules
  directories := Nat.le_trans first.directories second.directories
  files := Nat.le_trans first.files second.files
  decls := Nat.le_trans first.decls second.decls

theorem noLonger_addDecl (data : Declaration) : p.NoLonger (p.addDecl data) := by
  rw [addDecl_eq]
  cases parent : data.parent with
  | file home => constructor <;> simp [editChildren]
  | decl owner => constructor <;> simp [editChildren, editDecl]

theorem OneCall.noLonger (made : p.OneCall q) : p.NoLonger q := by
  cases made with
  | elsewhere decls files _ modules directories =>
    exact ⟨modules, directories, files ▸ Nat.le_refl _, decls ▸ Nat.le_refl _⟩
  | file => constructor <;> simp [addFile]
  | decl => exact noLonger_addDecl _
  | edit => constructor <;> simp [editDecl]
  | reference => exact ⟨Nat.le_refl _, Nat.le_refl _, Nat.le_refl _, Nat.le_refl _⟩

theorem Extends.noLonger (extension : p.Extends q) : p.NoLonger q := by
  obtain ⟨calls, made⟩ := extension
  apply run?_induction (NoLonger.refl p) ?_ made
  intro q call shorter ready
  exact shorter.trans (call.oneCall ready).noLonger

namespace Extends

variable (extension : p.Extends q)
include extension

theorem mem_moduleIds {id : ModuleId} (known : id ∈ p.moduleIds) : id ∈ q.moduleIds := by
  rw [Project.mem_moduleIds] at known ⊢
  exact Nat.lt_of_lt_of_le known extension.noLonger.modules

theorem mem_dirIds {id : DirId} (known : id ∈ p.dirIds) : id ∈ q.dirIds := by
  rw [Project.mem_dirIds] at known ⊢
  exact Nat.lt_of_lt_of_le known extension.noLonger.directories

theorem mem_declIds {id : DeclId} (known : id ∈ p.declIds) : id ∈ q.declIds := by
  rw [Project.mem_declIds] at known ⊢
  exact Nat.lt_of_lt_of_le known extension.noLonger.decls

theorem offers {parent : Parent} (offered : p.Offers parent) : q.Offers parent := by
  cases parent with
  | file home =>
    simp only [Offers, mem_fileIds] at offered ⊢
    exact Nat.lt_of_lt_of_le offered extension.noLonger.files
  | decl owner => exact extension.mem_declIds offered

end Extends

end Relocation.Project
