import Relocation.Project.Place
import Relocation.Proofs.Project.Search
set_option autoImplicit false

/-!
The nesting of declarations. Walks outwards are cut off, so what they say about a declaration is
only what it is for the whole chain around it if the chain ends in a file before that.
-/

namespace Relocation.Project

variable (p : Project)

def containerOf : Parent → Container
  | .file file => .package (p.fragmentOfFile file)
  | .decl owner => .decl owner

theorem container_eq (id : DeclId) : p.container id = p.containerOf (p.decl id).parent := by
  unfold container containerOf
  cases (p.decl id).parent <;> rfl

theorem containersFrom_decl (count : Nat) (id : DeclId) :
    p.containersFrom (count + 1) (.decl id) = .decl id :: p.containersFrom count (p.container id) :=
  rfl

theorem fileOf?_eq (id : DeclId) :
    p.fileOf? id =
      match (p.decl id).parent with
      | .file file => some file
      | .decl owner => p.fileWithin (chainLimit - 1) owner :=
  rfl

theorem moduleOf?_eq (id : DeclId) : p.moduleOf? id = (p.fileOf? id).bind p.moduleOfFile? := by
  unfold moduleOf? rootOf? moduleOfFile?
  cases p.fileOf? id <;> rfl

variable {p}

/-- Every declaration lies in a file, and in fewer than `count` other declarations. -/
def NestedBelow (p : Project) (count : Nat) : Prop :=
  ∀ id ∈ p.declIds, (p.fileWithin count id).isSome = true

instance (p : Project) (count : Nat) : Decidable (p.NestedBelow count) := by
  unfold NestedBelow
  infer_instance

theorem NestedBelow.isSome {count : Nat} (nested : p.NestedBelow (count + 1)) (id : DeclId) :
    (p.fileWithin (count + 1) id).isSome = true := by
  by_cases inside : id ∈ p.declIds
  · exact nested id inside
  · simp only [fileWithin, p.decl_of_not_mem inside]
    rfl

theorem fileWithin_succ {steps : Nat} {id : DeclId} {file : FileId}
    (found : p.fileWithin steps id = some file) : p.fileWithin (steps + 1) id = some file := by
  induction steps generalizing id with
  | zero => cases found
  | succ steps inductionHypothesis =>
    unfold fileWithin at found ⊢
    cases parent : (p.decl id).parent with
    | file other =>
      rw [parent] at found
      exact found
    | decl owner =>
      rw [parent] at found
      exact inductionHypothesis found

theorem fileWithin_of_le {steps more : Nat} (enough : steps ≤ more) {id : DeclId} {file : FileId}
    (found : p.fileWithin steps id = some file) : p.fileWithin more id = some file := by
  induction enough with
  | refl => exact found
  | step _ inductionHypothesis => exact fileWithin_succ inductionHypothesis

/-- Looking at more parents than a chain has makes no difference. -/
theorem fileWithin_eq {steps more : Nat} (enough : steps ≤ more) {id : DeclId}
    (ends : (p.fileWithin steps id).isSome = true) :
    p.fileWithin more id = p.fileWithin steps id := by
  obtain ⟨file, found⟩ := Option.isSome_iff_exists.mp ends
  rw [found, fileWithin_of_le enough found]

/-- A declaration is not `outer` and does not lie in it, however far the way outwards is. -/
def Outside (p : Project) (outer id : DeclId) : Prop :=
  ∀ steps, p.liesWithin (.decl outer) steps (.decl id) = false

theorem liesWithin_file (outer : DeclId) (steps : Nat) (file : FileId) :
    p.liesWithin (.decl outer) steps (.file file) = false := by
  cases steps <;> rfl

/-- A walk that comes to a file without meeting `outer` has seen all there is. -/
theorem outside_of_liesWithin {outer id : DeclId} {steps : Nat}
    (ends : (p.fileWithin steps id).isSome = true)
    (apart : p.liesWithin (.decl outer) steps (.decl id) = false) : p.Outside outer id := by
  induction steps generalizing id with
  | zero => cases ends
  | succ steps inductionHypothesis =>
    intro further
    unfold fileWithin at ends
    cases parent : (p.decl id).parent with
    | file file =>
      simp only [liesWithin, around?, parent, Bool.or_eq_false_iff] at apart
      cases further with
      | zero => exact apart.1
      | succ further => simp [liesWithin, around?, parent, apart.1, liesWithin_file]
    | decl owner =>
      rw [parent] at ends
      simp only [liesWithin, around?, parent, Bool.or_eq_false_iff] at apart
      have above := inductionHypothesis ends apart.2
      cases further with
      | zero => exact apart.1
      | succ further => simp [liesWithin, around?, parent, apart.1, above further]

theorem outside_of_isAncestor {count : Nat} (nested : p.NestedBelow (count + 1))
    (short : count < chainLimit) {outer id : DeclId}
    (apart : p.isAncestor (.decl outer) (.decl id) = false) : p.Outside outer id := by
  refine outside_of_liesWithin ?_ apart
  rw [fileWithin_eq short (nested.isSome id)]
  exact nested.isSome id

namespace Outside

variable {outer id : DeclId}

theorem ne (outside : p.Outside outer id) : id ≠ outer := by
  rintro rfl
  have zero := outside 0
  simp [liesWithin] at zero

theorem owner (outside : p.Outside outer id) {owner : DeclId}
    (parent : (p.decl id).parent = .decl owner) : p.Outside outer owner := by
  intro steps
  have above := outside (steps + 1)
  simp only [liesWithin, around?, parent, Bool.or_eq_false_iff] at above
  exact above.2

theorem of_mem_containersFrom (outside : p.Outside outer id) (count : Nat) {owner : DeclId}
    (around : .decl owner ∈ p.containersFrom count (.decl id)) : p.Outside outer owner := by
  induction count generalizing id with
  | zero => cases around
  | succ count inductionHypothesis =>
    rw [containersFrom_decl] at around
    rcases List.mem_cons.mp around with here | above
    · cases here
      exact outside
    · cases parent : (p.decl id).parent with
      | file file =>
        rw [container_eq, parent] at above
        cases count with
        | zero => cases above
        | succ count => simp [containersFrom, containerOf] at above
      | decl next =>
        rw [container_eq, parent] at above
        exact inductionHypothesis (outside.owner parent) above

theorem of_mem_owners (outside : p.Outside outer id) {owner : DeclId}
    (around : owner ∈ p.owners id) : p.Outside outer owner := by
  obtain ⟨container, member, isDecl⟩ := List.mem_filterMap.mp around
  cases container with
  | package fragment => cases isDecl
  | decl other =>
    cases isDecl
    exact outside.of_mem_containersFrom (chainLimit + 1) (List.mem_cons_of_mem _ member)

end Outside

end Relocation.Project
