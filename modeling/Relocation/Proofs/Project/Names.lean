import Relocation.Proofs.Project.Extends
import Relocation.Proofs.Project.Listed
set_option autoImplicit false

/-!
The names of declarations in a project that grows. A qualified name depends on nothing but the short
names around a declaration and the package of its file, and those are there before the declaration
is. So a declaration goes by one name ever after.
-/

namespace Relocation.Project

/-- The name that a container gives to what lies in it, if `count` containers are followed. -/
def nameFrom (p : Project) : Nat → Container → QualifiedName
  | 0, _ => .root
  | _ + 1, .package fragment => fragment.name
  | count + 1, .decl owner => (p.nameFrom count (p.container owner)).child (p.decl owner).name

theorem packageAtEnd_cons_decl (owner : DeclId) (chain : List Container) :
    packageAtEnd (.decl owner :: chain) = packageAtEnd chain := by
  cases chain with
  | nil => rfl
  | cons next rest => rfl

theorem nameFrom_eq (p : Project) (count : Nat) (container : Container) :
    p.nameFrom count container =
      ((p.containersFrom count container).filterMap Container.asDecl?).foldr
        (fun decl name => name.child (p.decl decl).name)
        (packageAtEnd (p.containersFrom count container)) := by
  induction count generalizing container with
  | zero => rfl
  | succ count inductionHypothesis =>
    cases container with
    | package fragment => rfl
    | decl owner =>
      have around : Container.asDecl? (.decl owner) = some owner := rfl
      rw [containersFrom_decl, packageAtEnd_cons_decl, List.filterMap_cons_some around,
        List.foldr_cons, ← inductionHypothesis]
      rfl

theorem qualifiedName_eq (p : Project) (id : DeclId) :
    p.qualifiedName id = (p.nameFrom chainLimit (p.container id)).child (p.decl id).name := by
  rw [nameFrom_eq]
  rfl

/-- Where the declarations of one project lie, and under which name, is the same in the other, and
files differ in what they list at most. -/
structure Keeps (p q : Project) : Prop where
  name : ∀ id ∈ p.declIds, (q.decl id).name = (p.decl id).name
  parent : ∀ id ∈ p.declIds, (q.decl id).parent = (p.decl id).parent
  file : ∀ file ∈ p.fileIds, ∃ declarations, q.file file = { p.file file with declarations }

variable {p q r : Project}

theorem Keeps.of_same (decls : q.decls = p.decls) (files : q.files = p.files) : p.Keeps q where
  name := fun id _ => by rw [decl, decl, decls]
  parent := fun id _ => by rw [decl, decl, decls]
  file := fun home _ => ⟨(p.file home).declarations, by rw [Project.file, Project.file, files]⟩

theorem OneCall.keeps (made : p.OneCall q) : p.Keeps q := by
  cases made with
  | elsewhere decls files => exact .of_same decls files
  | reference => exact .of_same rfl rfl
  | file directory name package =>
    refine ⟨fun id _ => rfl, fun id _ => rfl, ?_⟩
    intro file known
    rw [mem_fileIds] at known
    refine ⟨(p.file file).declarations, ?_⟩
    simp [Project.file, Project.addFile, Array.getD_eq_getD_getElem?, Array.getElem?_push,
      Nat.ne_of_lt known]
  | @decl data =>
    refine ⟨?_, fun id known => parent_addDecl_of_mem data known, ?_⟩
    · intro id known
      rw [field_addDecl Declaration.name (fun _ _ => rfl),
        if_neg fun new => nextDecl_not_mem (new ▸ known)]
    · intro file _
      rw [addDecl_eq]
      exact p.file_editChildren data.parent (·.push p.nextDecl) file
  | edit id name parent =>
    exact ⟨fun other _ => field_editDecl Declaration.name name id other,
      fun other _ => field_editDecl Declaration.parent parent id other, fun file _ => ⟨_, rfl⟩⟩

theorem Extends.mem_fileIds (extension : p.Extends q) {file : FileId} (known : file ∈ p.fileIds) :
    file ∈ q.fileIds := by
  rw [Project.mem_fileIds] at known ⊢
  exact Nat.lt_of_lt_of_le known extension.noLonger.files

theorem Extends.keeps (extension : p.Extends q) : p.Keeps q := by
  have start : p.Extends p ∧ p.Keeps p := ⟨Extends.refl p, Keeps.of_same rfl rfl⟩
  obtain ⟨calls, made⟩ := extension
  refine (run?_induction (motive := fun q => p.Extends q ∧ p.Keeps q) start ?_ made).2
  rintro q call ⟨grown, keeps⟩ ready
  refine ⟨grown.trans (Extends.call call ready), ?_⟩
  have next := (call.oneCall ready).keeps
  constructor
  · intro id known
    rw [next.name id (grown.mem_declIds known), keeps.name id known]
  · intro id known
    rw [next.parent id (grown.mem_declIds known), keeps.parent id known]
  · intro file known
    obtain ⟨early, before⟩ := keeps.file file known
    obtain ⟨late, after⟩ := next.file file (grown.mem_fileIds known)
    exact ⟨late, by rw [after, before]⟩

theorem Listed.mem_fileIds (listed : p.Listed) {id : DeclId} (known : id ∈ p.declIds)
    {file : FileId} (parent : (p.decl id).parent = .file file) : file ∈ p.fileIds := by
  have child := listed.topLevel id known file parent
  rw [Project.mem_fileIds]
  by_contra outside
  rw [Project.topLevel, Project.file, Array.getD_eq_getD_getElem?,
    Array.getElem?_eq_none (Nat.le_of_not_lt outside)] at child
  cases child

theorem Keeps.nameFrom (keeps : p.Keeps q) (listed : p.Listed) (count : Nat) {id : DeclId}
    (known : id ∈ p.declIds) :
    q.nameFrom count (q.container id) = p.nameFrom count (p.container id) := by
  induction count generalizing id with
  | zero => rfl
  | succ count inductionHypothesis =>
    rw [container_eq, container_eq, keeps.parent id known]
    cases parent : (p.decl id).parent with
    | file file =>
      obtain ⟨declarations, same⟩ := keeps.file file (listed.mem_fileIds known parent)
      simp [containerOf, Project.nameFrom, fragmentOfFile, packageOfFile, same]
    | decl owner =>
      have declared := listed.owner id known owner parent
      simp only [containerOf, Project.nameFrom, inductionHypothesis declared,
        keeps.name owner declared]

theorem Keeps.qualifiedName (keeps : p.Keeps q) (listed : p.Listed) {id : DeclId}
    (known : id ∈ p.declIds) : q.qualifiedName id = p.qualifiedName id := by
  rw [qualifiedName_eq, qualifiedName_eq, keeps.nameFrom listed chainLimit known,
    keeps.name id known]

end Relocation.Project
