import Relocation.Proofs.Project.Relocate
set_option autoImplicit false

/-!
What one call of the builder can do to a project. It adds an entry, edits a declaration where that
leaves it in its place, or touches neither declarations nor files nor references. So as far as the
places of declarations go, a call changes nothing or adds one more.
-/

namespace Relocation.Project

def Offers (p : Project) : Parent → Prop
  | .file home => home ∈ p.fileIds
  | .decl owner => owner ∈ p.declIds

/-- What one call makes of a project. A declaration that is edited keeps its name, its place and its
members, and a reference resolves to what is there. -/
inductive OneCall (p : Project) : Project → Prop where
  | elsewhere {q : Project} (decls : q.decls = p.decls) (files : q.files = p.files)
      (references : q.references = p.references) (modules : p.modules.size ≤ q.modules.size)
      (directories : p.directories.size ≤ q.directories.size) : p.OneCall q
  | file (directory : DirId) (name : String) (package : Option QualifiedName) :
      p.OneCall (p.addFile directory name package)
  | decl {data : Declaration} (bare : data.members = #[]) (offered : p.Offers data.parent) :
      p.OneCall (p.addDecl data)
  | edit (id : DeclId) {edit : Declaration → Declaration}
      (name : ∀ data, (edit data).name = data.name)
      (parent : ∀ data, (edit data).parent = data.parent)
      (members : ∀ data, (edit data).members = data.members) : p.OneCall (p.editDecl id edit)
  | reference {entry : Reference}
      (known : ∀ target, entry.target = some target → target ∈ p.declIds) :
      p.OneCall { p with references := p.references.push entry }

variable {p q : Project}

theorem addUnresolved_eq (owner : DeclId) (text : String) :
    p.addUnresolved owner text =
      { p with
        references := p.references.push {
          file := p.homeFile owner, owner := some owner, target := none, text
          offset := p.references.size + 1, flags := {} } } := by
  have last {edit : Reference → Reference} {entry : Reference} :
      (p.references.push entry).modify p.references.size edit =
        p.references.push (edit entry) := by
    apply Array.ext_getElem?
    intro index
    simp only [Array.getElem?_modify, Array.getElem?_push, @eq_comm _ index]
    split
    · rfl
    · rfl
  simp only [addUnresolved, addReference, nextRef, last]

theorem nextDecl_not_mem : p.nextDecl ∉ p.declIds := by
  simp [mem_declIds, nextDecl]

theorem addDecl_eq (data : Declaration) :
    p.addDecl data =
      let listed := p.editChildren data.parent fun children => children.push p.nextDecl
      { listed with decls := listed.decls.push data } := by
  unfold addDecl editChildren
  cases data.parent <;> rfl

theorem references_addDecl (data : Declaration) : (p.addDecl data).references = p.references := by
  rw [addDecl_eq]
  cases data.parent <;> rfl

theorem decl_addDecl (data : Declaration) (id : DeclId) :
    (p.addDecl data).decl id =
      if id = p.nextDecl then data
      else (p.editChildren data.parent fun children => children.push p.nextDecl).decl id := by
  rcases id with ⟨index⟩
  have size : (p.editChildren data.parent fun children => children.push p.nextDecl).decls.size =
      p.decls.size := by
    simp only [← length_declIds, declIds_editChildren]
  simp only [addDecl_eq, decl, Array.getD_eq_getD_getElem?, Array.getElem?_push, size]
  by_cases new : index = p.decls.size
  · simp [nextDecl, new]
  · simp [nextDecl, new]

/-- A new declaration changes nothing about another one but which members it lists. -/
theorem field_addDecl {α : Type} (field : Declaration → α)
    (kept : ∀ data members, field { data with members } = field data) (data : Declaration)
    (id : DeclId) :
    field ((p.addDecl data).decl id) =
      if id = p.nextDecl then field data else field (p.decl id) := by
  rw [decl_addDecl]
  split
  · rfl
  · obtain ⟨members, same⟩ := p.decl_editChildren data.parent (·.push p.nextDecl) id
    rw [same, kept]

theorem parent_addDecl (data : Declaration) (id : DeclId) :
    ((p.addDecl data).decl id).parent =
      if id = p.nextDecl then data.parent else (p.decl id).parent :=
  field_addDecl Declaration.parent (fun _ _ => rfl) data id

theorem parent_addDecl_of_mem (data : Declaration) {id : DeclId} (known : id ∈ p.declIds) :
    ((p.addDecl data).decl id).parent = (p.decl id).parent := by
  rw [parent_addDecl, if_neg fun new => nextDecl_not_mem (new ▸ known)]

theorem parent_addDecl_nextDecl (data : Declaration) :
    ((p.addDecl data).decl p.nextDecl).parent = data.parent := by
  rw [parent_addDecl, if_pos rfl]

theorem mem_declIds_addDecl (data : Declaration) {id : DeclId} :
    id ∈ (p.addDecl data).declIds ↔ id ∈ p.declIds ∨ id = p.nextDecl := by
  have size : (p.addDecl data).decls.size = p.decls.size + 1 := by
    simp only [addDecl_eq, Array.size_push, ← length_declIds, declIds_editChildren]
  rcases id with ⟨index⟩
  simp only [mem_declIds, size, nextDecl, DeclId.mk.injEq]
  omega

/-- A new declaration is listed last by what it lies in, and by nothing else. -/
theorem members_addDecl {data : Declaration} (offered : p.Offers data.parent) (owner : DeclId) :
    (p.addDecl data).members owner =
      if owner = p.nextDecl then data.members.toList
      else p.members owner ++ if data.parent = .decl owner then [p.nextDecl] else [] := by
  unfold members
  rw [decl_addDecl]
  split
  · rfl
  · cases parent : data.parent with
    | file home => simp [editChildren, decl]
    | decl edited =>
      rw [parent] at offered
      simp only [editChildren, decl_editDecl, Parent.decl.injEq]
      by_cases same : owner = edited
      · subst same
        rw [if_pos ⟨rfl, offered⟩, if_pos rfl, Array.toList_push]
      · rw [if_neg (fun here => same here.1), if_neg (Ne.symm same), List.append_nil]

theorem topLevel_addDecl {data : Declaration} (offered : p.Offers data.parent) (home : FileId) :
    (p.addDecl data).topLevel home =
      p.topLevel home ++ if data.parent = .file home then [p.nextDecl] else [] := by
  have files : (p.addDecl data).topLevel home =
      (p.editChildren data.parent fun children => children.push p.nextDecl).topLevel home := by
    rw [addDecl_eq]
    rfl
  rw [files]
  cases parent : data.parent with
  | decl owner => simp [editChildren, editDecl, topLevel, file]
  | file edited =>
    rw [parent, Offers, mem_fileIds] at offered
    simp only [editChildren, topLevel, file, Array.getD_eq_getD_getElem?, Array.getElem?_modify,
      Parent.file.injEq]
    rcases home with ⟨index⟩
    rcases edited with ⟨edited⟩
    simp only [FileId.mk.injEq] at offered ⊢
    by_cases same : edited = index
    · subst same
      simp [offered]
    · simp [same]

theorem topLevel_addFile (directory : DirId) (name : String) (package : Option QualifiedName)
    (file : FileId) : (p.addFile directory name package).topLevel file = p.topLevel file := by
  simp only [topLevel, Project.file, addFile, Array.getD_eq_getD_getElem?, Array.getElem?_push]
  split
  next new =>
    rw [new, Array.getElem?_eq_none (Nat.le_refl _)]
    rfl
  · rfl

theorem declIds_editDecl (id : DeclId) (edit : Declaration → Declaration) :
    (p.editDecl id edit).declIds = p.declIds := by
  simp [declIds, editDecl]

theorem field_editDecl {α : Type} (field : Declaration → α) {edit : Declaration → Declaration}
    (kept : ∀ data, field (edit data) = field data) (id other : DeclId) :
    field ((p.editDecl id edit).decl other) = field (p.decl other) := by
  rw [decl_editDecl]
  split
  · exact kept _
  · rfl

/-- The same declarations, each in the place where it was and listed where it was. -/
structure SamePlaces (p q : Project) : Prop where
  declIds : q.declIds = p.declIds
  parent : ∀ id, (q.decl id).parent = (p.decl id).parent
  members : ∀ owner, q.members owner = p.members owner
  topLevel : ∀ file, q.topLevel file = p.topLevel file

theorem SamePlaces.of_same (decls : q.decls = p.decls) (files : q.files = p.files) :
    p.SamePlaces q where
  declIds := by rw [Project.declIds, Project.declIds, decls]
  parent := fun id => by rw [decl, decl, decls]
  members := fun owner => by rw [Project.members, Project.members, decl, decl, decls]
  topLevel := fun home => by rw [Project.topLevel, Project.topLevel, file, file, files]

/-- A call leaves all declarations where they are, or adds one. -/
theorem OneCall.places (made : p.OneCall q) :
    p.SamePlaces q ∨
      ∃ data, data.members = #[] ∧ p.Offers data.parent ∧ q = p.addDecl data := by
  cases made with
  | elsewhere decls files => exact Or.inl (.of_same decls files)
  | file directory name package =>
    exact Or.inl ⟨rfl, fun _ => rfl, fun _ => rfl, topLevel_addFile directory name package⟩
  | decl bare offered => exact Or.inr ⟨_, bare, offered, rfl⟩
  | edit id name parent members =>
    refine Or.inl ⟨declIds_editDecl id _, field_editDecl Declaration.parent parent id, ?_, ?_⟩
    · exact fun owner => congrArg Array.toList (field_editDecl _ members id owner)
    · exact fun _ => rfl
  | reference known => exact Or.inl (.of_same rfl rfl)

end Relocation.Project
