import Mathlib.Logic.Relation
import Relocation.Check.Visible
import Relocation.Project.Usage
import Relocation.Proofs.Project.Nesting
set_option autoImplicit false

/-!
What lies in what, without a limit on the way outwards.

The walks of a project are cut off, and a walk that is cut off says no. In a project that is not
nested too deep no walk is, so containment is the transitive relation it should be.
-/

namespace Relocation.Project

variable {p : Project}

/-- `inner` is `outer` or lies in it, however deep. -/
def LiesIn (p : Project) (inner outer : Element) : Prop :=
  Relation.ReflTransGen (fun element around => p.around? element = some around) inner outer

theorem liesWithin_self (p : Project) (element : Element) (steps : Nat) :
    p.liesWithin element steps element = true := by
  cases steps <;> simp [liesWithin]

theorem isInside_of_mem {elements : List Element} {element : Element}
    (listed : element ∈ elements) : p.isInside elements element = true :=
  List.any_eq_true.mpr ⟨element, listed, p.liesWithin_self element chainLimit⟩

theorem liesIn_of_liesWithin {outer inner : Element} {steps : Nat}
    (inside : p.liesWithin outer steps inner = true) : p.LiesIn inner outer := by
  induction steps generalizing inner with
  | zero =>
    have same : inner = outer := by simpa [liesWithin] using inside
    exact same ▸ Relation.ReflTransGen.refl
  | succ steps inductionHypothesis =>
    simp only [liesWithin, Bool.or_eq_true, beq_iff_eq] at inside
    rcases inside with rfl | inside
    · exact Relation.ReflTransGen.refl
    · cases around : p.around? inner with
      | none => simp [around] at inside
      | some next =>
        rw [around] at inside
        exact Relation.ReflTransGen.head around (inductionHypothesis inside)

theorem liesIn_of_fileWithin {id : DeclId} {file : FileId} {steps : Nat}
    (found : p.fileWithin steps id = some file) : p.LiesIn (.decl id) (.file file) := by
  induction steps generalizing id with
  | zero => cases found
  | succ steps inductionHypothesis =>
    unfold fileWithin at found
    cases parent : (p.decl id).parent with
    | file home =>
      rw [parent] at found
      cases found
      exact Relation.ReflTransGen.single (by simp [around?, parent])
    | decl owner =>
      rw [parent] at found
      exact Relation.ReflTransGen.head (by simp [around?, parent]) (inductionHypothesis found)

namespace LiesIn

theorem cases_around {inner outer : Element} (inside : p.LiesIn inner outer) :
    inner = outer ∨ ∃ next, p.around? inner = some next ∧ p.LiesIn next outer :=
  Relation.ReflTransGen.cases_head inside

theorem of_file {file : FileId} {outer : Element} (inside : p.LiesIn (.file file) outer) :
    outer = .file file := by
  rcases inside.cases_around with same | ⟨next, around, -⟩
  · exact same.symm
  · cases around

theorem of_reference {inner : Element} {id : RefId} (inside : p.LiesIn inner (.reference id)) :
    inner = .reference id := by
  rcases Relation.ReflTransGen.cases_tail inside with same | ⟨next, -, around⟩
  · exact same.symm
  · cases next with
    | decl owner =>
      simp only [around?] at around
      split at around <;> cases around
    | reference other =>
      simp only [around?] at around
      split at around <;> cases around
    | file file => cases around

theorem liesWithin_decl {id : DeclId} {outer : Element} {steps : Nat}
    (inside : p.LiesIn (.decl id) outer) (ends : (p.fileWithin steps id).isSome = true) :
    p.liesWithin outer steps (.decl id) = true := by
  induction steps generalizing id with
  | zero => cases ends
  | succ steps inductionHypothesis =>
    rcases inside.cases_around with rfl | ⟨next, around, further⟩
    · exact p.liesWithin_self _ _
    · unfold fileWithin at ends
      cases parent : (p.decl id).parent with
      | file file =>
        have next_eq : next = .file file := by simpa [around?, parent] using around.symm
        subst next_eq
        obtain rfl := further.of_file
        simp [liesWithin, around?, parent, p.liesWithin_self]
      | decl owner =>
        have next_eq : next = .decl owner := by simpa [around?, parent] using around.symm
        subst next_eq
        rw [parent] at ends
        simp [liesWithin, around?, parent, inductionHypothesis further ends]

theorem fileWithin_eq {id : DeclId} {file : FileId} {steps : Nat}
    (inside : p.LiesIn (.decl id) (.file file)) (ends : (p.fileWithin steps id).isSome = true) :
    p.fileWithin steps id = some file := by
  induction steps generalizing id with
  | zero => cases ends
  | succ steps inductionHypothesis =>
    rcases inside.cases_around with same | ⟨next, around, further⟩
    · cases same
    · unfold fileWithin at ends ⊢
      cases parent : (p.decl id).parent with
      | file other =>
        have next_eq : next = .file other := by simpa [around?, parent] using around.symm
        subst next_eq
        cases further.of_file
        rfl
      | decl owner =>
        have next_eq : next = .decl owner := by simpa [around?, parent] using around.symm
        subst next_eq
        rw [parent] at ends
        exact inductionHypothesis further ends

end LiesIn

theorem liesIn_iff {inner outer : Element} :
    p.LiesIn inner outer ↔ ∃ steps, p.liesWithin outer steps inner = true := by
  constructor
  · intro inside
    induction inside using Relation.ReflTransGen.head_induction_on with
    | refl => exact ⟨0, p.liesWithin_self _ _⟩
    | head around _ inductionHypothesis =>
      obtain ⟨steps, further⟩ := inductionHypothesis
      exact ⟨steps + 1, by simp [liesWithin, around, further]⟩
  · rintro ⟨steps, inside⟩
    exact liesIn_of_liesWithin inside

theorem outside_iff {outer id : DeclId} :
    p.Outside outer id ↔ ¬ p.LiesIn (.decl id) (.decl outer) := by
  simp [Outside, liesIn_iff]

theorem NestedBelow.isSome_fileWithin {count steps : Nat} (nested : p.NestedBelow (count + 1))
    (enough : count + 1 ≤ steps) (id : DeclId) : (p.fileWithin steps id).isSome = true := by
  rw [fileWithin_eq enough (nested.isSome id)]
  exact nested.isSome id

/-- The way outwards from an element ends in a file before the search for an ancestor does. -/
def Ends (p : Project) : Element → Prop
  | .decl id => (p.fileWithin chainLimit id).isSome = true
  | .reference id => ∀ owner, (p.reference id).owner = some owner →
      (p.fileWithin (chainLimit - 1) owner).isSome = true
  | .file _ => True

theorem LiesIn.isAncestor {outer inner : Element} (inside : p.LiesIn inner outer)
    (ends : p.Ends inner) : p.isAncestor outer inner = true := by
  cases inner with
  | decl id => exact inside.liesWithin_decl ends
  | file file =>
    obtain rfl := inside.of_file
    exact p.liesWithin_self _ _
  | reference id =>
    rcases inside.cases_around with rfl | ⟨next, around, further⟩
    · exact p.liesWithin_self _ _
    · have rest : p.liesWithin outer (chainLimit - 1) next = true := by
        cases owned : (p.reference id).owner with
        | some owner =>
          have next_eq : next = .decl owner := by simpa [around?, owned] using around.symm
          subst next_eq
          exact further.liesWithin_decl (ends owner owned)
        | none =>
          have next_eq : next = .file (p.reference id).file := by
            simpa [around?, owned] using around.symm
          subst next_eq
          obtain rfl := further.of_file
          exact p.liesWithin_self _ _
      have step : p.isAncestor outer (.reference id) =
          p.liesWithin outer (chainLimit - 1 + 1) (.reference id) := rfl
      rw [step, liesWithin]
      simp only [around, rest, Bool.or_true]

section Nested

variable {count : Nat} (nested : p.NestedBelow (count + 1)) (short : count + 1 < chainLimit)
include nested short

theorem NestedBelow.ends (element : Element) : p.Ends element := by
  cases element with
  | decl id => exact nested.isSome_fileWithin (Nat.le_of_lt short) id
  | reference id =>
    intro owner _
    exact nested.isSome_fileWithin (Nat.le_sub_one_of_lt short) owner
  | file file => trivial

theorem isAncestor_iff {outer inner : Element} :
    p.isAncestor outer inner = true ↔ p.LiesIn inner outer :=
  ⟨liesIn_of_liesWithin, fun inside => inside.isAncestor (nested.ends short inner)⟩

theorem isInside_iff {elements : List Element} {element : Element} :
    p.isInside elements element = true ↔ ∃ outer ∈ elements, p.LiesIn element outer := by
  simp only [isInside, List.any_eq_true, isAncestor_iff nested short]

theorem LiesIn.isInside {elements : List Element} {inner outer : Element}
    (inside : p.LiesIn inner outer) (moves : p.isInside elements outer = true) :
    p.isInside elements inner = true := by
  rw [isInside_iff nested short] at moves ⊢
  obtain ⟨root, listed, around⟩ := moves
  exact ⟨root, listed, inside.trans around⟩

theorem LiesIn.fileOf?_eq {id : DeclId} {file : FileId}
    (inside : p.LiesIn (.decl id) (.file file)) : p.fileOf? id = some file :=
  inside.fileWithin_eq (nested.isSome_fileWithin (Nat.le_of_lt short) id)

end Nested

theorem mem_containersFrom_decl {steps : Nat} {id owner : DeclId} :
    .decl owner ∈ p.containersFrom (steps + 1) (.decl id) ↔
      p.liesWithin (.decl owner) steps (.decl id) = true := by
  induction steps generalizing id with
  | zero => simp [containersFrom, liesWithin, @eq_comm _ owner]
  | succ steps inductionHypothesis =>
    rw [containersFrom_decl, List.mem_cons, container_eq]
    cases parent : (p.decl id).parent with
    | file file =>
      simp [containersFrom, containerOf, liesWithin, around?, parent, liesWithin_file,
        @eq_comm _ owner]
    | decl next =>
      simp [containerOf, inductionHypothesis, liesWithin, around?, parent, @eq_comm _ owner]

theorem mem_declChain {id owner : DeclId} :
    owner ∈ p.declChain (.decl id) ↔ p.isAncestor (.decl owner) (.decl id) = true := by
  have around : p.declChain (.decl id) =
      (p.containersFrom (chainLimit + 1) (.decl id)).filterMap Container.asDecl? := rfl
  rw [around, isAncestor, ← mem_containersFrom_decl, List.mem_filterMap]
  constructor
  · rintro ⟨container, member, isDecl⟩
    cases container with
    | decl other =>
      cases isDecl
      exact member
    | package fragment => cases isDecl
  · exact fun member => ⟨_, member, rfl⟩

end Relocation.Project
