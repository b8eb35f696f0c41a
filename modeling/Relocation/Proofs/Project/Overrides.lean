import Mathlib.Data.Set.Card
import Relocation.Proofs.Sealed.Hierarchy
import Relocation.Proofs.Stack
set_option autoImplicit false

/-!
Members at the top of the overrides above a declaration.

Overrides may branch, meet again and, where the project is broken, go round in circles. The search
for the members at the top visits everything above a declaration once, so it ends and finds each of
them once. It finds none above a declaration that overrides nothing, and none either where all ways
up end in a circle; without circles there is always one.
-/

namespace Relocation.Project

variable (p : Project)

def Overrides (id other : DeclId) : Prop := other ∈ (p.decl id).overrides

/-- A member at the top of the overrides above a declaration. -/
structure Overridden (id top : DeclId) : Prop where
  above : Relation.TransGen p.Overrides id top
  first : (p.decl top).overrides = []

/-- No declaration overrides itself, be it through others. -/
def OverridesAcyclic : Prop := ∀ id, ¬ Relation.TransGen p.Overrides id id

def declsAbove (id : DeclId) : Set DeclId :=
  {other | Relation.TransGen p.Overrides id other ∧ other ∈ p.declIds}

variable {p}

theorem mem_declIds_of_overrides {id other : DeclId} (overrides : p.Overrides id other) :
    id ∈ p.declIds := by
  by_contra unknown
  rw [Overrides, p.decl_of_not_mem unknown] at overrides
  cases overrides

theorem suffices_overrides (seen : List DeclId) :
    Walk.Suffices (fun decl => (p.decl decl).overrides) p.declDepth seen :=
  suffices_declDepth (fun _ _ overrides => mem_declIds_of_overrides overrides) seen

/-- The declarations that override nothing among those looked at, the last one of which is first. -/
def topsOf (p : Project) (visited : List DeclId) : List DeclId :=
  visited.reverse.filter fun decl => (p.decl decl).overrides.isEmpty

def lookedAt (p : Project) : List DeclId → List DeclId → List DeclId :=
  Walk.seenAfter (fun decl => (p.decl decl).overrides) p.declDepth

theorem deepestOverridden_eq (id : DeclId) :
    p.deepestOverridden id = p.topsOf (p.lookedAt (p.decl id).overrides.reverse []) := rfl

theorem mem_deepestOverridden_iff {id top : DeclId} :
    top ∈ p.deepestOverridden id ↔ p.Overridden id top := by
  simp only [deepestOverridden_eq, topsOf, lookedAt, List.mem_filter, List.mem_reverse,
    Walk.mem_seenAfter_iff _ (suffices_overrides []), List.isEmpty_iff]
  constructor
  · rintro ⟨⟨start, overrides, reached⟩, first⟩
    exact ⟨Relation.TransGen.head' overrides reached, first⟩
  · rintro ⟨above, first⟩
    obtain ⟨start, overrides, reached⟩ := Relation.TransGen.head'_iff.mp above
    exact ⟨⟨start, overrides, reached⟩, first⟩

theorem nodup_deepestOverridden (id : DeclId) : (p.deepestOverridden id).Nodup :=
  (Walk.nodup_reachable _ _ _).filter _

/-- A search for the members at the top: the declarations still to look at, the next one first,
those looked at, the last one first, and the members found so far. -/
structure OverrideSearch where
  pending : List DeclId
  visited : List DeclId
  found : List DeclId

/-- Looks at the next declaration. What it overrides comes next, the last of it first. -/
def OverrideSearch.round (p : Project) : OverrideSearch → OverrideSearch
  | ⟨[], visited, found⟩ => ⟨[], visited, found⟩
  | ⟨current :: rest, visited, found⟩ =>
    if current ∈ visited then
      ⟨rest, visited, found⟩
    else if (p.decl current).overrides = [] then
      ⟨rest, current :: visited, if current ∈ found then found else found ++ [current]⟩
    else
      ⟨(p.decl current).overrides.reverse ++ rest, current :: visited, found⟩

theorem topsOf_cons (current : DeclId) (visited : List DeclId) :
    p.topsOf (current :: visited) =
      if (p.decl current).overrides = [] then p.topsOf visited ++ [current]
      else p.topsOf visited := by
  rw [topsOf, List.reverse_cons, List.filter_append]
  split
  next first => simp [topsOf, first]
  next inner => simp [topsOf, inner]

/-- A search comes to its end, and has found the declarations without overrides that it has looked
at. -/
theorem comesTo_lookedAt (pending visited : List DeclId) :
    ComesTo (OverrideSearch.round p) ⟨pending, visited, p.topsOf visited⟩
      ⟨[], p.lookedAt pending visited, p.topsOf (p.lookedAt pending visited)⟩ := by
  apply Walk.stack_induction _ (suffices_overrides visited)
    (motive := fun pending visited =>
      ComesTo (OverrideSearch.round p) ⟨pending, visited, p.topsOf visited⟩
        ⟨[], p.lookedAt pending visited, p.topsOf (p.lookedAt pending visited)⟩)
  case empty =>
    intro visited
    exact ComesTo.refl _
  case known =>
    intro current rest visited known further
    apply ComesTo.head
    rw [lookedAt, Walk.seenAfter_known _ known, OverrideSearch.round, if_pos known]
    exact further
  case new =>
    intro current rest visited new further
    apply ComesTo.head
    rw [lookedAt, Walk.seenAfter_new _ (suffices_overrides visited) new, OverrideSearch.round,
      if_neg new]
    rw [topsOf_cons] at further
    by_cases first : (p.decl current).overrides = []
    · have once : current ∉ p.topsOf visited := fun found =>
        new (List.mem_reverse.mp (List.mem_filter.mp found).1)
      rw [if_pos first, first] at further
      rw [if_pos first, if_neg once, first]
      exact further
    · rw [if_neg first] at further
      rw [if_neg first]
      exact further

/-- What is above an overridden declaration is above the overriding one, which is not above itself. -/
theorem ncard_declsAbove_lt (acyclic : p.OverridesAcyclic) {id other : DeclId}
    (overrides : p.Overrides id other) (inside : other ∈ p.declIds) :
    (p.declsAbove other).ncard < (p.declsAbove id).ncard := by
  have finite : (p.declsAbove id).Finite :=
    (List.finite_toSet p.declIds).subset fun _ above => above.2
  refine Set.ncard_lt_ncard (Set.ssubset_iff_of_subset ?_ |>.mpr ?_) finite
  · rintro further ⟨above, declared⟩
    exact ⟨above.head overrides, declared⟩
  · exact ⟨other, ⟨Relation.TransGen.single overrides, inside⟩, fun above => acyclic other above.1⟩

/-- Going up from a declaration that overrides another one comes to a top, with fewer and fewer
declarations above. -/
theorem exists_overridden (acyclic : p.OverridesAcyclic) {id other : DeclId}
    (overrides : p.Overrides id other) : ∃ top, p.Overridden id top := by
  induction size : (p.declsAbove id).ncard using Nat.strongRecOn generalizing id other with
  | ind size inductionHypothesis =>
    by_cases first : (p.decl other).overrides = []
    · exact ⟨other, Relation.TransGen.single overrides, first⟩
    · obtain ⟨further, next⟩ := List.exists_mem_of_ne_nil _ first
      have fewer := ncard_declsAbove_lt acyclic overrides (mem_declIds_of_overrides next)
      obtain ⟨top, overridden⟩ := inductionHypothesis _ (size ▸ fewer) next rfl
      exact ⟨top, overridden.above.head overrides, overridden.first⟩

theorem deepestOverridden_eq_nil_iff (acyclic : p.OverridesAcyclic) {id : DeclId} :
    p.deepestOverridden id = [] ↔ (p.decl id).overrides = [] := by
  constructor
  · intro nothing
    by_contra some
    obtain ⟨other, overrides⟩ := List.exists_mem_of_ne_nil _ some
    obtain ⟨top, overridden⟩ := exists_overridden acyclic overrides
    have listed := mem_deepestOverridden_iff.mpr overridden
    rw [nothing] at listed
    cases listed
  · intro none
    apply List.eq_nil_iff_forall_not_mem.mpr
    intro top listed
    obtain ⟨other, overrides, -⟩ :=
      Relation.TransGen.head'_iff.mp (mem_deepestOverridden_iff.mp listed).above
    rw [Overrides, none] at overrides
    cases overrides

/-- What is found above a declaration is exactly the members at the top. -/
structure FindsTops (p : Project) (id : DeclId) : Prop where
  ends : ∃ visited, ComesTo (OverrideSearch.round p) ⟨(p.decl id).overrides.reverse, [], []⟩
    ⟨[], visited, p.deepestOverridden id⟩
  exact : ∀ top, top ∈ p.deepestOverridden id ↔ p.Overridden id top
  once : (p.deepestOverridden id).Nodup
  none : p.OverridesAcyclic → (p.deepestOverridden id = [] ↔ (p.decl id).overrides = [])

theorem overridden_tops_exact (p : Project) (id : DeclId) : p.FindsTops id where
  ends := ⟨_, comesTo_lookedAt (p.decl id).overrides.reverse []⟩
  exact := fun _ => mem_deepestOverridden_iff
  once := nodup_deepestOverridden id
  none := fun acyclic => deepestOverridden_eq_nil_iff acyclic

/-- Overrides that branch and meet again below one top, and two members that override each other. -/
example :
    let member (overrides : List DeclId) : Declaration :=
      { name := "run", kind := .function, parent := .file ⟨0⟩, overrides }
    let p : Project := { decls := #[member [⟨1⟩, ⟨2⟩], member [⟨3⟩], member [⟨3⟩], member [],
      member [⟨5⟩], member [⟨4⟩]] }
    p.deepestOverridden ⟨0⟩ = [⟨3⟩] ∧ p.deepestOverridden ⟨4⟩ = [] := by
  decide

end Relocation.Project
