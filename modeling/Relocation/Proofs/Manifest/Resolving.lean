import Relocation.Proofs.Manifest.Loading
import Relocation.Proofs.Project.Types
set_option autoImplicit false

/-!
Resolving a written type twice. The types that are taken from the table stay there, and nothing else
about a project bears on what a name stands for but what is declared where. So as long as signatures
are all that changes, a text that has been resolved goes on standing for the same type, and resolving
it again adds nothing.
-/

namespace Relocation

/-- A declaration without its signature. -/
def Declaration.unsigned (decl : Declaration) : Declaration :=
  { decl with supertypes := [], overrides := [], params := [], type := none, bounds := [] }

namespace Project

/-- The same declarations, but for their signatures, with no fewer types. -/
structure Refines (p q : Project) : Prop where
  size : q.decls.size = p.decls.size
  decl : ∀ id, (q.decl id).unsigned = (p.decl id).unsigned
  files : q.files = p.files
  directories : q.directories = p.directories
  types : p.types.Grows q.types

variable {p q r : Project}

namespace Refines

theorem refl (p : Project) : p.Refines p := ⟨rfl, fun _ => rfl, rfl, rfl, TypeTable.Grows.refl _⟩

theorem trans (first : p.Refines q) (second : q.Refines r) : p.Refines r where
  size := second.size.trans first.size
  decl := fun id => (second.decl id).trans (first.decl id)
  files := second.files.trans first.files
  directories := second.directories.trans first.directories
  types := first.types.trans second.types

theorem withTypes {types : TypeTable} (grows : p.types.Grows types) :
    p.Refines { p with types } :=
  ⟨rfl, fun _ => rfl, rfl, rfl, grows⟩

theorem editDecl (id : DeclId) {edit : Declaration → Declaration}
    (outside : ∀ data, (edit data).unsigned = data.unsigned) : p.Refines (p.editDecl id edit) where
  size := Array.size_modify ..
  decl := by
    intro other
    rw [decl_editDecl]
    split
    · exact outside _
    · rfl
  files := rfl
  directories := rfl
  types := TypeTable.Grows.refl _

section Same

variable (refines : p.Refines q)
include refines

theorem field {α : Type} (field : Declaration → α)
    (outside : ∀ data, field data.unsigned = field data) (id : DeclId) :
    field (q.decl id) = field (p.decl id) := by
  rw [← outside, refines.decl, outside]

theorem declIds : q.declIds = p.declIds := by
  simp [Project.declIds, refines.size]

theorem name (id : DeclId) : (q.decl id).name = (p.decl id).name :=
  refines.field Declaration.name (fun _ => rfl) id

theorem kind (id : DeclId) : (q.decl id).kind = (p.decl id).kind :=
  refines.field Declaration.kind (fun _ => rfl) id

theorem parent (id : DeclId) : (q.decl id).parent = (p.decl id).parent :=
  refines.field Declaration.parent (fun _ => rfl) id

theorem members (id : DeclId) : q.members id = p.members id :=
  congrArg Array.toList (refines.field Declaration.members (fun _ => rfl) id)

theorem container (id : DeclId) : q.container id = p.container id := by
  have fragment : q.fragmentOfFile = p.fragmentOfFile := by
    funext file
    simp [fragmentOfFile, moduleOfFile?, rootOfFile, packageOfFile, Project.file, directory,
      refines.files, refines.directories]
  rw [container_eq, container_eq, refines.parent]
  cases (p.decl id).parent with
  | file file => simp [containerOf, fragment]
  | decl owner => rfl

theorem containersFrom (count : Nat) (container : Container) :
    q.containersFrom count container = p.containersFrom count container := by
  induction count generalizing container with
  | zero => rfl
  | succ count inductionHypothesis =>
    cases container with
    | package fragment => rfl
    | decl owner =>
      rw [containersFrom_decl, containersFrom_decl, refines.container, inductionHypothesis]

theorem lineage (id : DeclId) : q.lineage id = p.lineage id := by
  simp [Project.lineage, refines.size, refines.container, refines.containersFrom]

theorem qualifiedName (id : DeclId) : q.qualifiedName id = p.qualifiedName id := by
  simp [Project.qualifiedName, owners, containers, refines.container, refines.containersFrom,
    refines.name]

end Same

end Refines

section Taken

variable {shape : TypeShape} {id : TypeId} (taken : p.internType shape = (id, q))
include taken

theorem refines_of_taken : p.Refines q := by
  cases taken
  exact Refines.withTypes (TypeTable.grows_intern ..)

theorem holds_of_taken (refines : q.Refines r) : r.types.Holds shape id := by
  cases taken
  exact (TypeTable.holds_intern ..).grow refines.types

/-- Taking a shape again gives the same and adds nothing. -/
theorem internType_of_taken (refines : q.Refines r) : r.internType shape = (id, r) :=
  internType_of_holds (holds_of_taken taken refines)

end Taken

end Project

namespace Manifest.Loader

open Project (Refines)

variable {names : Names DeclId} {context : DeclId} {text : String} {p q r : Project}

theorem typeParameter?_of_refines (refines : p.Refines q) (context : DeclId) (name : String) :
    typeParameter? q context name = typeParameter? p context name := by
  simp [typeParameter?, refines.lineage, refines.members, refines.kind, refines.name]

theorem meaning_of_refines (refines : p.Refines q) (context : DeclId) (name : String)
    (bare : Bool) : meaning names q context name bare = meaning names p context name bare := by
  simp [meaning, typeParameter?_of_refines refines]

theorem keptByTaking_frame :
    KeptByTaking fun p q => ∃ types, p.types.Grows types ∧ q = { p with types } where
  refl := fun p => ⟨p.types, TypeTable.Grows.refl _, rfl⟩
  trans := by
    rintro p _ _ ⟨types, grows, rfl⟩ ⟨more, further, rfl⟩
    exact ⟨more, grows.trans further, rfl⟩
  taken := fun p shape => ⟨_, p.types.grows_intern shape, rfl⟩

/-- Nothing but the table of types changes. -/
theorem frame_internType {type : TypeText} {id : TypeId}
    (returned : internType names context text type p = .ok (id, q)) :
    ∃ types, p.types.Grows types ∧ q = { p with types } :=
  keptByTaking_frame.internType returned

theorem refines_internType {type : TypeText} {id : TypeId}
    (returned : internType names context text type p = .ok (id, q)) : p.Refines q := by
  obtain ⟨types, grows, rfl⟩ := frame_internType returned
  exact Refines.withTypes grows

theorem refines_internArgs {args : List TypeTextArg} {ids : List TypeArg}
    (returned : internArgs names context text args p = .ok (ids, q)) : p.Refines q := by
  obtain ⟨types, grows, rfl⟩ := keptByTaking_frame.internArgs returned
  exact Refines.withTypes grows

mutual

theorem internType_again {other : String} : ∀ {type : TypeText} {p : Project} {id : TypeId}
    {q r : Project}, internType names context text type p = .ok (id, q) → q.Refines r →
      internType names context other type r = .ok (id, r)
  | .node name args nullable, p, id, q, r, returned, refines => by
    have through := (refines_internType returned).trans refines
    rw [internType_node] at returned ⊢
    rw [meaning_of_refines through]
    split at returned
    · cases returned
      rfl
    next param _ =>
      have bare : p.paramType param = (_, (p.paramType param).2) := rfl
      cases nullable with
      | false =>
        have taken := Except.ok.inj returned
        exact congrArg Except.ok (Project.internType_of_taken taken refines)
      | true =>
        have taken := Except.ok.inj returned
        have later := (Project.refines_of_taken taken).trans refines
        have again : r.paramType param = _ := Project.internType_of_taken bare later
        rw [again]
        exact congrArg Except.ok (Project.internType_of_taken taken refines)
    next classifier _ =>
      obtain ⟨⟨ids, middle⟩, interned, done⟩ := bind_eq_ok.mp returned
      have taken := Except.ok.inj done
      have later := (Project.refines_of_taken taken).trans refines
      exact bind_eq_ok.mpr ⟨(ids, r), internArgs_again interned later,
        congrArg Except.ok (Project.internType_of_taken taken refines)⟩
    · cases returned

theorem internArgs_again {other : String} : ∀ {args : List TypeTextArg} {p : Project}
    {ids : List TypeArg} {q r : Project}, internArgs names context text args p = .ok (ids, q) →
      q.Refines r → internArgs names context other args r = .ok (ids, r)
  | [], p, ids, q, r, returned, refines => by
    unfold internArgs at returned ⊢
    cases returned
    rfl
  | .star :: rest, p, ids, q, r, returned, refines => by
    unfold internArgs at returned ⊢
    obtain ⟨⟨others, middle⟩, interned, done⟩ := bind_eq_ok.mp returned
    cases done
    exact bind_eq_ok.mpr ⟨(others, r), internArgs_again interned refines, rfl⟩
  | .type variance type :: rest, p, ids, q, r, returned, refines => by
    unfold internArgs at returned ⊢
    obtain ⟨⟨id, middle⟩, first, returned⟩ := bind_eq_ok.mp returned
    obtain ⟨⟨others, last⟩, second, done⟩ := bind_eq_ok.mp returned
    cases done
    have later := (refines_internArgs second).trans refines
    exact bind_eq_ok.mpr ⟨(id, r), internType_again first later,
      bind_eq_ok.mpr ⟨(others, r), internArgs_again second refines, rfl⟩⟩

end

mutual

theorem ordered_internType : ∀ {type : TypeText} {p : Project} {id : TypeId} {q : Project},
    internType names context text type p = .ok (id, q) → p.types.Ordered →
      q.types.Ordered ∧ id.index < q.types.shapes.size
  | .node name args nullable, p, id, q, returned, ordered => by
    rw [internType_node] at returned
    split at returned
    · cases returned
      refine ⟨ordered, ?_⟩
      cases nullable with
      | false => exact ordered.holds_any.lt_size
      | true => exact ordered.holds_nullableAny.lt_size
    next param _ =>
      have bare := ordered.intern (.param param false) nofun
      cases nullable with
      | false =>
        cases returned
        exact ⟨bare, (TypeTable.holds_intern _ _).lt_size⟩
      | true =>
        cases returned
        exact ⟨bare.intern (.param param true) nofun, (TypeTable.holds_intern _ _).lt_size⟩
    next classifier _ =>
      obtain ⟨⟨ids, middle⟩, interned, done⟩ := bind_eq_ok.mp returned
      obtain ⟨before, inside⟩ := ordered_internArgs interned ordered
      cases done
      exact ⟨before.intern (.applied classifier ids nullable) inside,
        (TypeTable.holds_intern _ _).lt_size⟩
    · cases returned

theorem ordered_internArgs : ∀ {args : List TypeTextArg} {p : Project} {ids : List TypeArg}
    {q : Project}, internArgs names context text args p = .ok (ids, q) → p.types.Ordered →
      q.types.Ordered ∧ ∀ variance id, TypeArg.type variance id ∈ ids → id.index < q.types.shapes.size
  | [], p, ids, q, returned, ordered => by
    unfold internArgs at returned
    cases returned
    exact ⟨ordered, nofun⟩
  | .star :: rest, p, ids, q, returned, ordered => by
    unfold internArgs at returned
    obtain ⟨⟨others, middle⟩, interned, done⟩ := bind_eq_ok.mp returned
    obtain ⟨after, inside⟩ := ordered_internArgs interned ordered
    cases done
    refine ⟨after, ?_⟩
    intro variance id listed
    rcases List.mem_cons.mp listed with same | later
    · cases same
    · exact inside variance id later
  | .type variance type :: rest, p, ids, q, returned, ordered => by
    unfold internArgs at returned
    obtain ⟨⟨id, middle⟩, first, returned⟩ := bind_eq_ok.mp returned
    obtain ⟨⟨others, last⟩, second, done⟩ := bind_eq_ok.mp returned
    obtain ⟨between, here⟩ := ordered_internType first ordered
    obtain ⟨after, inside⟩ := ordered_internArgs second between
    have grown := (refines_internArgs second).types.size_le
    cases done
    refine ⟨after, ?_⟩
    intro other argument listed
    rcases List.mem_cons.mp listed with same | later
    · cases same
      exact Nat.lt_of_lt_of_le here grown
    · exact inside other argument later

end

theorem resolveType_eq_ok {type : TypeId} :
    resolveType names p context text = .ok (type, q) ↔ ∃ parsed,
      TypeText.read text.toList = .ok parsed ∧
        internType names context text parsed p = .ok (type, q) := by
  unfold resolveType
  cases TypeText.read text.toList with
  | error fault => simp
  | ok parsed => simp

theorem frame_resolveType {type : TypeId}
    (returned : resolveType names p context text = .ok (type, q)) :
    ∃ types, p.types.Grows types ∧ q = { p with types } := by
  obtain ⟨parsed, -, interned⟩ := resolveType_eq_ok.mp returned
  exact frame_internType interned

theorem ordered_resolveType {type : TypeId}
    (returned : resolveType names p context text = .ok (type, q)) (ordered : p.types.Ordered) :
    q.types.Ordered := by
  obtain ⟨parsed, -, interned⟩ := resolveType_eq_ok.mp returned
  exact (ordered_internType interned ordered).1

/-- In a project with the same declarations and no fewer types, a text stands for the type that it
stood for, and nothing is added. -/
theorem resolveType_again {type : TypeId}
    (returned : resolveType names p context text = .ok (type, q)) (refines : q.Refines r) :
    resolveType names r context text = .ok (type, r) := by
  obtain ⟨parsed, read, interned⟩ := resolveType_eq_ok.mp returned
  exact resolveType_eq_ok.mpr ⟨parsed, read, internType_again interned refines⟩

end Manifest.Loader

end Relocation
