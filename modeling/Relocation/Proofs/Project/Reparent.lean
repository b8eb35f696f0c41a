import Relocation.Proofs.Project.Inside
import Relocation.Proofs.Project.Relocate
set_option autoImplicit false

/-!
Hanging a declaration below another parent, with the visibility that it has.

The way outwards stays what it was for everything that is not inside the declaration. From inside,
it leads to the declaration as before and goes on at the new parent. So a declaration that is not
inside is around the inside exactly if it is around the new parent, or is the new parent.
-/

namespace Relocation

def Parent.element : Parent → Element
  | .file home => .file home
  | .decl owner => .decl owner

namespace Project

variable (p : Project)

def withVisibility (id : DeclId) (visibility : Visibility) : Project :=
  p.editDecl id fun data => { data with visibility }

/-- The project with a declaration below another parent, and everything else as it is. -/
def reparent (id : DeclId) (parent : Parent) : Project :=
  (p.relocate id parent).withVisibility id (p.decl id).visibility

theorem around?_decl (id : DeclId) : p.around? (.decl id) = some (p.decl id).parent.element := by
  cases parent : (p.decl id).parent <;> simp [around?, parent, Parent.element]

section WithVisibility

variable (id : DeclId) (visibility : Visibility)

theorem decl_withVisibility (other : DeclId) :
    (p.withVisibility id visibility).decl other =
      if other = id ∧ other ∈ p.declIds then { p.decl other with visibility }
      else p.decl other := by
  rw [withVisibility, decl_editDecl]

theorem field_withVisibility {α : Type} (field : Declaration → α)
    (kept : ∀ data visibility, field { data with visibility } = field data) (other : DeclId) :
    field ((p.withVisibility id visibility).decl other) = field (p.decl other) := by
  rw [decl_withVisibility]
  split
  · exact kept ..
  · rfl

@[simp]
theorem parent_withVisibility (other : DeclId) :
    ((p.withVisibility id visibility).decl other).parent = (p.decl other).parent :=
  p.field_withVisibility id visibility Declaration.parent (fun _ _ => rfl) other

@[simp]
theorem kind_withVisibility (other : DeclId) :
    ((p.withVisibility id visibility).decl other).kind = (p.decl other).kind :=
  p.field_withVisibility id visibility Declaration.kind (fun _ _ => rfl) other

@[simp]
theorem flags_withVisibility (other : DeclId) :
    ((p.withVisibility id visibility).decl other).flags = (p.decl other).flags :=
  p.field_withVisibility id visibility Declaration.flags (fun _ _ => rfl) other

@[simp]
theorem container_withVisibility : (p.withVisibility id visibility).container = p.container := by
  funext other
  unfold container
  rw [parent_withVisibility]
  rfl

@[simp]
theorem containersFrom_withVisibility (count : Nat) (container : Container) :
    (p.withVisibility id visibility).containersFrom count container =
      p.containersFrom count container := by
  induction count generalizing container with
  | zero => rfl
  | succ count inductionHypothesis =>
    unfold containersFrom
    cases container with
    | package fragment => rfl
    | decl owner => simp only [container_withVisibility, inductionHypothesis]

@[simp]
theorem fileWithin_withVisibility (steps : Nat) (other : DeclId) :
    (p.withVisibility id visibility).fileWithin steps other = p.fileWithin steps other := by
  induction steps generalizing other with
  | zero => rfl
  | succ steps inductionHypothesis =>
    unfold fileWithin
    rw [parent_withVisibility]
    cases (p.decl other).parent with
    | file file => rfl
    | decl owner => exact inductionHypothesis owner

end WithVisibility

variable {p} {moved : DeclId} (place : Parent)

theorem around?_reparent_of_ne {element : Element} (other : element ≠ .decl moved) :
    (p.reparent moved place).around? element = p.around? element := by
  cases element with
  | decl id =>
    have differs : id ≠ moved := fun same => other (congrArg Element.decl same)
    rw [around?_decl, around?_decl, reparent, parent_withVisibility,
      parent_relocate_of_ne place differs]
  | reference id =>
    obtain ⟨files, decls, same⟩ := p.relocate_eq moved place
    rw [reparent, same]
    rfl
  | file id => rfl

theorem around?_reparent_self (declared : moved ∈ p.declIds) :
    (p.reparent moved place).around? (.decl moved) = some place.element := by
  rw [around?_decl, reparent, parent_withVisibility, parent_relocate_self place declared]

theorem liesIn_reparent_of_outside {element outer : Element}
    (outside : ¬ p.LiesIn element (.decl moved)) :
    (p.reparent moved place).LiesIn element outer ↔ p.LiesIn element outer := by
  have same {element : Element} (outside : ¬ p.LiesIn element (.decl moved)) :
      (p.reparent moved place).around? element = p.around? element := by
    apply around?_reparent_of_ne
    rintro rfl
    exact outside Relation.ReflTransGen.refl
  constructor
  · intro inside
    induction inside using Relation.ReflTransGen.head_induction_on with
    | refl => exact Relation.ReflTransGen.refl
    | head around _ inductionHypothesis =>
      rw [same outside] at around
      refine Relation.ReflTransGen.head around (inductionHypothesis fun inside => ?_)
      exact outside (Relation.ReflTransGen.head around inside)
  · intro inside
    induction inside using Relation.ReflTransGen.head_induction_on with
    | refl => exact Relation.ReflTransGen.refl
    | head around _ inductionHypothesis =>
      refine Relation.ReflTransGen.head (by rwa [same outside]) (inductionHypothesis fun inside => ?_)
      exact outside (Relation.ReflTransGen.head around inside)

theorem LiesIn.reparent {element : Element} (inside : p.LiesIn element (.decl moved)) :
    (p.reparent moved place).LiesIn element (.decl moved) := by
  induction inside using Relation.ReflTransGen.head_induction_on with
  | refl => exact Relation.ReflTransGen.refl
  | @head element next around _ inductionHypothesis =>
    by_cases same : element = .decl moved
    · rw [same]
      exact Relation.ReflTransGen.refl
    · rw [← around?_reparent_of_ne place same] at around
      exact Relation.ReflTransGen.head around inductionHypothesis

/-- Seen from inside the declaration, the surroundings are those of the new parent. -/
theorem liesIn_reparent_iff (declared : moved ∈ p.declIds)
    (away : ¬ p.LiesIn place.element (.decl moved)) {element outer : Element}
    (inside : p.LiesIn element (.decl moved)) (apart : ¬ p.LiesIn outer (.decl moved)) :
    (p.reparent moved place).LiesIn element outer ↔ p.LiesIn place.element outer := by
  have step := around?_reparent_self (p := p) place declared
  constructor
  · intro reached
    -- Everything has one thing around it, so `outer` lies beyond the declaration or before it.
    have unique : Relator.RightUnique fun element around =>
        (p.reparent moved place).around? element = some around := by
      intro element first second one other
      exact Option.some.inj (one.symm.trans other)
    rcases Relation.ReflTransGen.total_of_right_unique unique (inside.reparent place) reached with
      beyond | before
    · rcases LiesIn.cases_around beyond with same | ⟨next, around, further⟩
      · exact absurd (same ▸ Relation.ReflTransGen.refl) apart
      · rw [step] at around
        cases around
        exact (liesIn_reparent_of_outside place away).mp further
    · exact absurd ((liesIn_reparent_of_outside place apart).mp before) apart
  · intro around
    have further : (p.reparent moved place).LiesIn place.element outer :=
      (liesIn_reparent_of_outside place away).mpr around
    exact (inside.reparent place).trans (Relation.ReflTransGen.head step further)

theorem fileWithin_reparent_of_outside {id : DeclId} (outside : p.Outside moved id) (steps : Nat) :
    (p.reparent moved place).fileWithin steps id = p.fileWithin steps id := by
  rw [reparent, fileWithin_withVisibility, fileWithin_relocate place outside]

theorem isSome_fileWithin_reparent {id : DeclId} (inside : p.LiesIn (.decl id) (.decl moved))
    {steps more : Nat} (ends : (p.fileWithin steps id).isSome = true)
    (placed : ((p.reparent moved place).fileWithin more moved).isSome = true) :
    ((p.reparent moved place).fileWithin (steps + more) id).isSome = true := by
  induction steps generalizing id with
  | zero => cases ends
  | succ steps inductionHypothesis =>
    by_cases same : id = moved
    · subst same
      rw [fileWithin_eq (Nat.le_add_left ..) placed]
      exact placed
    · rcases inside.cases_around with equal | ⟨next, around, further⟩
      · cases equal
        exact absurd rfl same
      · have kept : ((p.reparent moved place).decl id).parent = (p.decl id).parent := by
          rw [reparent, parent_withVisibility, parent_relocate_of_ne place same]
        rw [Nat.add_right_comm]
        unfold fileWithin at ends ⊢
        rw [kept]
        rw [around?_decl] at around
        cases parent : (p.decl id).parent with
        | file file => rfl
        | decl owner =>
          rw [parent] at ends around
          cases around
          exact inductionHypothesis further ends

/-- The depth of a project at most doubles. -/
theorem NestedBelow.reparent {count : Nat} (nested : p.NestedBelow (count + 1))
    (declared : moved ∈ p.declIds) (away : ∀ owner, place = .decl owner → p.Outside moved owner) :
    (p.reparent moved place).NestedBelow (count + 1 + (count + 1 + 1)) := by
  intro id _
  have placed : ((p.reparent moved place).fileWithin (count + 1 + 1) moved).isSome = true := by
    unfold fileWithin
    rw [Project.reparent, parent_withVisibility, parent_relocate_self place declared]
    cases place with
    | file file => rfl
    | decl owner =>
      have same := fileWithin_reparent_of_outside (.decl owner) (away owner rfl) (count + 1)
      rw [Project.reparent] at same
      simp only [same]
      exact nested.isSome owner
  by_cases inside : p.LiesIn (.decl id) (.decl moved)
  · exact isSome_fileWithin_reparent place inside (nested.isSome id) placed
  · rw [fileWithin_reparent_of_outside place (outside_iff.mpr inside)]
    exact nested.isSome_fileWithin (Nat.le_add_right ..) id

end Project

end Relocation
