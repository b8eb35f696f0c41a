import Relocation.Manifest.Load
import Relocation.Proofs.Project.Types
import Relocation.Proofs.Steps
set_option autoImplicit false

/-!
How a written type comes to be in the table. The name at its head means the top type, a type parameter
in scope or else a declaration. This and the arguments make a shape, and the shape is taken from the
table. So all that happens to a project meanwhile is that shapes are taken, one after the other.
-/

namespace Relocation

namespace Project

variable {p : Project} {shape : TypeShape} {id : TypeId}

theorem internType_eq (p : Project) (shape : TypeShape) :
    p.internType shape =
      ((p.types.intern shape).1, { p with types := (p.types.intern shape).2 }) :=
  rfl

theorem internType_of_holds (holds : p.types.Holds shape id) : p.internType shape = (id, p) := by
  rw [internType_eq, holds.intern]

theorem nullableType_of_holds (holds : p.types.Holds shape id) :
    p.nullableType id = p.internType shape.asNullable := by
  have same : p.types.nullable id = p.types.intern shape.asNullable := by
    rw [TypeTable.nullable, holds.get]
  simp [nullableType, Project.internType, withTypes, same]

end Project

namespace Manifest.Loader

inductive Meaning where
  | top
  | param (decl : DeclId)
  | classifier (decl : DeclId)

/-- The meaning of a name within `context`. Only a bare one is taken for the top type or for a type
parameter. -/
def meaning (names : Names DeclId) (p : Project) (context : DeclId) (name : String) (bare : Bool) :
    Option Meaning :=
  if name == "Any" && bare then some .top
  else
    match if bare then typeParameter? p context name else none with
    | some param => some (.param param)
    | none => (names.lookup name).map .classifier

variable {names : Names DeclId} {context : DeclId} {text : String}

theorem name_of_meaning_top {p : Project} {name : String} {bare : Bool}
    (means : meaning names p context name bare = some .top) : name = "Any" ∧ bare = true := by
  unfold meaning at means
  split at means
  next top => simpa using top
  · split at means
    · cases means
    · simp at means

theorem name_of_meaning_param {p : Project} {name : String} {bare : Bool} {param : DeclId}
    (means : meaning names p context name bare = some (.param param)) :
    (p.decl param).name = name ∧ bare = true := by
  unfold meaning at means
  split at means
  · cases means
  · split at means
    next other found =>
      cases means
      split at found
      next isBare =>
        obtain ⟨owner, -, found⟩ := List.exists_of_findSome?_eq_some found
        have same := List.find?_some found
        simp only [Bool.and_eq_true, beq_iff_eq] at same
        exact ⟨same.2, isBare⟩
      · cases found
    · simp at means

theorem lookup_of_meaning_classifier {p : Project} {name : String} {bare : Bool}
    {classifier : DeclId} (means : meaning names p context name bare = some (.classifier classifier)) :
    names.lookup name = some classifier := by
  unfold meaning at means
  split at means
  · cases means
  · split at means
    · cases means
    · simpa using means

theorem internType_node (name : String) (args : List TypeTextArg) (nullable : Bool) (p : Project) :
    internType names context text (.node name args nullable) p =
      match meaning names p context name args.isEmpty with
      | some .top => .ok (if nullable then TypeTable.nullableAny else TypeTable.any, p)
      | some (.param param) =>
        .ok (if nullable then (p.paramType param).2.internType (.param param true)
          else p.paramType param)
      | some (.classifier classifier) =>
        internArgs names context text args p >>= fun interned =>
          .ok (interned.2.internType (.applied classifier interned.1 nullable))
      | none => .error (.invalidType text (.unknownClassifier name)) := by
  unfold internType meaning
  split
  · rfl
  · cases if args.isEmpty then typeParameter? p context name else none with
    | some param =>
      have there : (p.paramType param).2.types.Holds (.param param false) (p.paramType param).1 :=
        p.types.holds_intern _
      cases nullable with
      | false => rfl
      | true => exact congrArg Except.ok (Project.nullableType_of_holds there)
    | none => cases names.lookup name <;> rfl

/-- A relation that holds between a project and what becomes of it when a shape is taken from its
table, and that carries over from step to step. -/
structure KeptByTaking (relation : Project → Project → Prop) : Prop where
  refl : ∀ p, relation p p
  trans : ∀ p q r, relation p q → relation q r → relation p r
  taken : ∀ p shape, relation p (p.internType shape).2

mutual

theorem KeptByTaking.internType {relation : Project → Project → Prop}
    (kept : KeptByTaking relation) : ∀ {type : TypeText} {p : Project} {id : TypeId} {q : Project},
      Loader.internType names context text type p = .ok (id, q) → relation p q
  | .node name args nullable, p, id, q, returned => by
    rw [internType_node] at returned
    split at returned
    · cases returned
      exact kept.refl p
    next param _ =>
      have bare := kept.taken p (.param param false)
      cases nullable with
      | false =>
        cases returned
        exact bare
      | true =>
        cases returned
        exact kept.trans _ _ _ bare (kept.taken _ _)
    next classifier _ =>
      obtain ⟨⟨ids, middle⟩, interned, done⟩ := bind_eq_ok.mp returned
      cases done
      exact kept.trans _ _ _ (kept.internArgs interned) (kept.taken _ _)
    · cases returned

theorem KeptByTaking.internArgs {relation : Project → Project → Prop}
    (kept : KeptByTaking relation) : ∀ {args : List TypeTextArg} {p : Project} {ids : List TypeArg}
      {q : Project}, Loader.internArgs names context text args p = .ok (ids, q) → relation p q
  | [], p, ids, q, returned => by
    unfold Loader.internArgs at returned
    cases returned
    exact kept.refl p
  | .star :: rest, p, ids, q, returned => by
    unfold Loader.internArgs at returned
    obtain ⟨⟨others, middle⟩, interned, done⟩ := bind_eq_ok.mp returned
    cases done
    exact kept.internArgs interned
  | .type variance type :: rest, p, ids, q, returned => by
    unfold Loader.internArgs at returned
    obtain ⟨⟨id, middle⟩, first, returned⟩ := bind_eq_ok.mp returned
    obtain ⟨⟨others, last⟩, second, done⟩ := bind_eq_ok.mp returned
    cases done
    exact kept.trans _ _ _ (kept.internType first) (kept.internArgs second)

end

end Manifest.Loader

end Relocation
