import Relocation.Project.Build
import Relocation.Project.Scope
import Relocation.Proofs.Project.Nesting
set_option autoImplicit false

/-!
Moving a declaration for real: it leaves the list of its parent, joins that of another one and has
this as its parent from then on.

Nothing else is touched. So whatever is looked up outwards from a declaration that is not inside
the moved one finds what it found before.
-/

namespace Relocation

/-- The visibility of a declaration with this parent. Nothing is protected directly in a file. -/
def Parent.landed : Parent → Visibility → Visibility
  | .file _, .prot => .pub
  | _, visibility => visibility

namespace Project

variable (p : Project)

def editChildren (parent : Parent) (edit : Array DeclId → Array DeclId) : Project :=
  match parent with
  | .file file =>
    { p with
      files := p.files.modify file.index fun data =>
        { data with declarations := edit data.declarations } }
  | .decl owner => p.editDecl owner fun data => { data with members := edit data.members }

/-- The project with a declaration in another place. -/
def relocate (id : DeclId) (parent : Parent) : Project :=
  let left := p.editChildren (p.decl id).parent fun children => children.filter (· != id)
  let joined := left.editChildren parent fun children => children.push id
  joined.editDecl id fun data =>
    { data with parent, visibility := parent.landed data.visibility }

theorem decl_editDecl (id other : DeclId) (edit : Declaration → Declaration) :
    (p.editDecl id edit).decl other =
      if other = id ∧ other ∈ p.declIds then edit (p.decl other) else p.decl other := by
  rcases id with ⟨index⟩
  rcases other with ⟨otherIndex⟩
  simp only [decl, editDecl, mem_declIds, Array.getD_eq_getD_getElem?, Array.getElem?_modify,
    DeclId.mk.injEq]
  by_cases same : index = otherIndex
  · subst same
    by_cases inside : index < p.decls.size
    · simp [inside]
    · simp [inside]
  · simp [same, Ne.symm same]

theorem decl_editChildren (parent : Parent) (edit : Array DeclId → Array DeclId) (id : DeclId) :
    ∃ members, (p.editChildren parent edit).decl id = { p.decl id with members } := by
  cases parent with
  | file file => exact ⟨_, rfl⟩
  | decl owner =>
    simp only [editChildren, decl_editDecl]
    split
    · exact ⟨_, rfl⟩
    · exact ⟨_, rfl⟩

theorem declIds_editChildren (parent : Parent) (edit : Array DeclId → Array DeclId) :
    (p.editChildren parent edit).declIds = p.declIds := by
  cases parent with
  | file file => rfl
  | decl owner => simp [editChildren, editDecl, declIds]

variable (moved : DeclId) (target : Parent)

/-- All that a relocation does to declarations, apart from which members they list. -/
theorem decl_relocate (id : DeclId) :
    ∃ members, (p.relocate moved target).decl id =
      if id = moved ∧ id ∈ p.declIds then
        { p.decl id with
          members, parent := target, visibility := target.landed (p.decl id).visibility }
      else { p.decl id with members } := by
  unfold relocate
  simp only [decl_editDecl, declIds_editChildren]
  obtain ⟨left, same⟩ := p.decl_editChildren (p.decl moved).parent (·.filter (· != moved)) id
  rcases (p.editChildren (p.decl moved).parent (·.filter (· != moved))).decl_editChildren target
    (·.push moved) id with ⟨joined, joinedSame⟩
  refine ⟨joined, ?_⟩
  rw [joinedSame, same]

theorem field_relocate {α : Type} (field : Declaration → α)
    (kept : ∀ data members parent visibility,
      field { data with members, parent, visibility } = field data) (id : DeclId) :
    field ((p.relocate moved target).decl id) = field (p.decl id) := by
  obtain ⟨members, same⟩ := p.decl_relocate moved target id
  rw [same]
  split
  · exact kept ..
  · exact kept ..

@[simp]
theorem kind_relocate (id : DeclId) :
    ((p.relocate moved target).decl id).kind = (p.decl id).kind :=
  p.field_relocate moved target Declaration.kind (fun _ _ _ _ => rfl) id

@[simp]
theorem flags_relocate (id : DeclId) :
    ((p.relocate moved target).decl id).flags = (p.decl id).flags :=
  p.field_relocate moved target Declaration.flags (fun _ _ _ _ => rfl) id

@[simp]
theorem supertypes_relocate (id : DeclId) :
    ((p.relocate moved target).decl id).supertypes = (p.decl id).supertypes :=
  p.field_relocate moved target Declaration.supertypes (fun _ _ _ _ => rfl) id

variable {p moved}

theorem parent_relocate_of_ne {id : DeclId} (other : id ≠ moved) :
    ((p.relocate moved target).decl id).parent = (p.decl id).parent := by
  obtain ⟨members, same⟩ := p.decl_relocate moved target id
  rw [same, if_neg (fun moving => other moving.1)]

theorem visibility_relocate_of_ne {id : DeclId} (other : id ≠ moved) :
    ((p.relocate moved target).decl id).visibility = (p.decl id).visibility := by
  obtain ⟨members, same⟩ := p.decl_relocate moved target id
  rw [same, if_neg (fun moving => other moving.1)]

theorem parent_relocate_self (declared : moved ∈ p.declIds) :
    ((p.relocate moved target).decl moved).parent = target := by
  obtain ⟨members, same⟩ := p.decl_relocate moved target moved
  rw [same, if_pos ⟨rfl, declared⟩]

theorem visibility_relocate_self (declared : moved ∈ p.declIds) :
    ((p.relocate moved target).decl moved).visibility =
      target.landed (p.decl moved).visibility := by
  obtain ⟨members, same⟩ := p.decl_relocate moved target moved
  rw [same, if_pos ⟨rfl, declared⟩]

variable (p moved)

theorem relocate_eq : ∃ files decls, p.relocate moved target = { p with files, decls } := by
  unfold relocate editChildren
  cases (p.decl moved).parent <;> cases target <;> exact ⟨_, _, rfl⟩

@[simp]
theorem modules_relocate : (p.relocate moved target).modules = p.modules := by
  obtain ⟨files, decls, same⟩ := p.relocate_eq moved target
  rw [same]

@[simp]
theorem types_relocate : (p.relocate moved target).types = p.types := by
  obtain ⟨files, decls, same⟩ := p.relocate_eq moved target
  rw [same]

@[simp]
theorem directories_relocate : (p.relocate moved target).directories = p.directories := by
  obtain ⟨files, decls, same⟩ := p.relocate_eq moved target
  rw [same]

@[simp]
theorem size_relocate : (p.relocate moved target).decls.size = p.decls.size := by
  unfold relocate editChildren
  cases (p.decl moved).parent <;> cases target <;> simp [editDecl]

theorem file_editChildren (parent : Parent) (edit : Array DeclId → Array DeclId) (id : FileId) :
    ∃ declarations, (p.editChildren parent edit).file id = { p.file id with declarations } := by
  cases parent with
  | file edited =>
    simp only [editChildren, Project.file, Array.getD_eq_getD_getElem?, Array.getElem?_modify]
    split
    · cases p.files[id.index]? with
      | none => exact ⟨_, rfl⟩
      | some data => exact ⟨_, rfl⟩
    · exact ⟨_, rfl⟩
  | decl owner => exact ⟨_, rfl⟩

theorem file_relocate (id : FileId) :
    ∃ declarations, (p.relocate moved target).file id = { p.file id with declarations } := by
  obtain ⟨left, same⟩ := p.file_editChildren (p.decl moved).parent (·.filter (· != moved)) id
  rcases (p.editChildren (p.decl moved).parent (·.filter (· != moved))).file_editChildren target
    (·.push moved) id with ⟨joined, joinedSame⟩
  refine ⟨joined, ?_⟩
  rw [same] at joinedSame
  exact joinedSame

@[simp]
theorem moduleOfFile?_relocate : (p.relocate moved target).moduleOfFile? = p.moduleOfFile? := by
  funext id
  obtain ⟨declarations, same⟩ := p.file_relocate moved target id
  simp [moduleOfFile?, rootOfFile, directory, same]

@[simp]
theorem packageOfFile_relocate :
    (p.relocate moved target).packageOfFile = p.packageOfFile := by
  funext id
  obtain ⟨declarations, same⟩ := p.file_relocate moved target id
  simp [packageOfFile, same]

@[simp]
theorem containerOf_relocate (parent : Parent) :
    (p.relocate moved target).containerOf parent = p.containerOf parent := by
  cases parent <;> simp [containerOf, fragmentOfFile]

@[simp]
theorem implementsModule_relocate (module common : ModuleId) :
    (p.relocate moved target).implementsModule module common =
      p.implementsModule module common := by
  simp [implementsModule, Project.module]

@[simp]
theorem isSubclassOf_relocate (sub sup : DeclId) :
    (p.relocate moved target).isSubclassOf sub sup = p.isSubclassOf sub sup := by
  have same : (p.relocate moved target).supertypeDecls = p.supertypeDecls := by
    funext id
    simp [supertypeDecls]
  simp [isSubclassOf, superHierarchy, declDepth, same]

section Outwards

variable {p moved} {id : DeclId} (outside : p.Outside moved id)
include outside

theorem container_relocate :
    (p.relocate moved target).container id = p.container id := by
  rw [container_eq, container_eq, parent_relocate_of_ne target outside.ne, containerOf_relocate]

theorem fileWithin_relocate (steps : Nat) :
    (p.relocate moved target).fileWithin steps id = p.fileWithin steps id := by
  induction steps generalizing id with
  | zero => rfl
  | succ steps inductionHypothesis =>
    unfold fileWithin
    rw [parent_relocate_of_ne target outside.ne]
    cases parent : (p.decl id).parent with
    | file file => rfl
    | decl owner => exact inductionHypothesis (outside.owner parent)

theorem containersFrom_relocate (count : Nat) :
    (p.relocate moved target).containersFrom count (.decl id) =
      p.containersFrom count (.decl id) := by
  induction count generalizing id with
  | zero => rfl
  | succ count inductionHypothesis =>
    unfold containersFrom
    simp only [container_relocate target outside]
    congr 1
    cases parent : (p.decl id).parent with
    | file file =>
      rw [container_eq, parent]
      cases count <;> rfl
    | decl owner =>
      rw [container_eq, parent]
      exact inductionHypothesis (outside.owner parent)

theorem containers_relocate :
    (p.relocate moved target).containers id = p.containers id := by
  have around := containersFrom_relocate target outside (chainLimit + 1)
  simpa [containersFrom, containers] using around

theorem owners_relocate : (p.relocate moved target).owners id = p.owners id := by
  unfold owners
  rw [containers_relocate target outside]

theorem containingClass?_relocate :
    (p.relocate moved target).containingClass? id = p.containingClass? id := by
  simp [containingClass?, owners_relocate target outside]

theorem fileOf?_relocate : (p.relocate moved target).fileOf? id = p.fileOf? id :=
  fileWithin_relocate target outside chainLimit

theorem moduleOf?_relocate : (p.relocate moved target).moduleOf? id = p.moduleOf? id := by
  simp [moduleOf?_eq, fileOf?_relocate target outside]

theorem packageOf?_relocate : (p.relocate moved target).packageOf? id = p.packageOf? id := by
  simp [packageOf?, fileOf?_relocate target outside]

end Outwards

end Project

end Relocation
