import Relocation.Proofs.Project.Inside
import Relocation.Proofs.Project.Ordered
set_option autoImplicit false

/-!
Containers from one outwards, without a limit on the way. The chain of a project is cut off, but in a
project that is not nested too deep it ends in a package before that. All its containers but the last
are declarations, and each of these was made after those around it.
-/

namespace Relocation.Project

variable {p : Project}

/-- `outer` is `inner` or is a container around it, however far out. -/
def Outwards (p : Project) : Container → Container → Prop :=
  Relation.ReflTransGen fun inner outer => ∃ owner, inner = .decl owner ∧ outer = p.container owner

theorem outwards_of_mem_containersFrom {count : Nat} {inner outer : Container}
    (member : outer ∈ p.containersFrom count inner) : p.Outwards inner outer := by
  induction count generalizing inner with
  | zero => cases member
  | succ count inductionHypothesis =>
    cases inner with
    | package fragment =>
      obtain rfl := List.mem_singleton.mp member
      exact Relation.ReflTransGen.refl
    | decl owner =>
      rw [containersFrom_decl] at member
      rcases List.mem_cons.mp member with rfl | further
      · exact Relation.ReflTransGen.refl
      · exact Relation.ReflTransGen.head ⟨owner, rfl, rfl⟩ (inductionHypothesis further)

theorem Outwards.mem_containersFrom {inner outer : Container} (outwards : p.Outwards inner outer)
    {count : Nat} (ends : ∀ owner, inner = .decl owner → (p.fileWithin count owner).isSome = true) :
    outer ∈ p.containersFrom (count + 1) inner := by
  induction count generalizing inner with
  | zero =>
    rcases outwards.cases_head with rfl | ⟨next, ⟨owner, rfl, -⟩, -⟩
    · exact List.mem_cons_self ..
    · cases ends owner rfl
  | succ count inductionHypothesis =>
    rcases outwards.cases_head with rfl | ⟨next, ⟨owner, rfl, rfl⟩, further⟩
    · exact List.mem_cons_self ..
    · rw [containersFrom_decl]
      refine List.mem_cons_of_mem _ (inductionHypothesis further fun around encloses => ?_)
      have found := ends owner rfl
      unfold fileWithin at found
      rw [container_eq] at encloses
      cases parent : (p.decl owner).parent with
      | file file =>
        rw [parent] at encloses
        cases encloses
      | decl next =>
        rw [parent] at encloses found
        cases encloses
        exact found

section Nested

variable {count : Nat} (nested : p.NestedBelow (count + 1)) (short : count + 1 < chainLimit)
include nested short

theorem mem_containersFrom_iff {inner outer : Container} :
    outer ∈ p.containersFrom chainLimit inner ↔ p.Outwards inner outer := by
  refine ⟨outwards_of_mem_containersFrom, fun outwards => ?_⟩
  have member : outer ∈ p.containersFrom (chainLimit - 1 + 1) inner :=
    outwards.mem_containersFrom fun owner _ =>
      nested.isSome_fileWithin (Nat.le_sub_one_of_lt short) owner
  exact member

theorem mem_containers_iff {id : DeclId} {container : Container} :
    container ∈ p.containers id ↔ p.Outwards (p.container id) container :=
  mem_containersFrom_iff nested short

end Nested

namespace Ordered

variable (ordered : p.Ordered)
include ordered

theorem index_lt_of_mem_containersFrom {count : Nat} {id owner : DeclId}
    (around : .decl owner ∈ p.containersFrom count (p.container id)) : owner.index < id.index := by
  induction count generalizing id with
  | zero => cases around
  | succ count inductionHypothesis =>
    rw [container_eq] at around
    cases parent : (p.decl id).parent with
    | file file =>
      rw [parent] at around
      cases List.mem_singleton.mp around
    | decl next =>
      have before := ordered.owner id next parent
      rw [parent, containerOf, containersFrom_decl] at around
      rcases List.mem_cons.mp around with here | further
      · cases here
        exact before
      · exact Nat.lt_trans (inductionHypothesis further) before

/-- A container with others around it is a declaration, and was made after all of them. -/
theorem pairwise_containersFrom (count : Nat) (container : Container) :
    (p.containersFrom count container).Pairwise fun inner outer =>
      ∃ id, inner = .decl id ∧ ∀ owner, outer = .decl owner → owner.index < id.index := by
  induction count generalizing container with
  | zero => exact List.Pairwise.nil
  | succ count inductionHypothesis =>
    cases container with
    | package fragment => exact List.pairwise_singleton ..
    | decl id =>
      rw [containersFrom_decl]
      refine List.pairwise_cons.mpr ⟨fun outer further => ⟨id, rfl, ?_⟩, inductionHypothesis _⟩
      rintro owner rfl
      exact ordered.index_lt_of_mem_containersFrom further

end Ordered

end Relocation.Project
