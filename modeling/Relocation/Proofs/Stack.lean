import Mathlib.Logic.Function.Iterate
import Relocation.Proofs.Walk
set_option autoImplicit false

/-!
Walks that keep a stack of nodes still to look at.

A round takes the top node off the stack. A node that was seen before is passed over, a new one is
noted and its successors are put on the stack. Successors may lead back to where the walk has been,
so the stack may grow again and again, and nodes may stand on it several times. But only a new node
with successors makes it grow, and each of these leaves one unseen node less. So the rounds come to
an end, and the nodes have then been seen in the order of the recursive walk.
-/

namespace Relocation

/-- A loop comes from one state to another by going through a number of rounds. -/
def ComesTo {State : Type} (round : State → State) (first last : State) : Prop :=
  ∃ rounds, round^[rounds] first = last

namespace ComesTo

variable {State : Type} {round : State → State} {first last : State}

theorem refl (state : State) : ComesTo round state state := ⟨0, rfl⟩

theorem head (further : ComesTo round (round first) last) : ComesTo round first last := by
  obtain ⟨rounds, reached⟩ := further
  exact ⟨rounds + 1, reached⟩

end ComesTo

namespace Walk

variable {α : Type}

def lastFirst (next : α → List α) (node : α) : List α := (next node).reverse

theorem reaches_lastFirst (next : α → List α) : Reaches (lastFirst next) = Reaches next := by
  simp only [Reaches, lastFirst, List.mem_reverse]

variable [DecidableEq α] (next : α → List α)

theorem Suffices.lastFirst {depth : Nat} {seen : List α} (enough : Suffices next depth seen) :
    Suffices (lastFirst next) depth seen := by
  obtain ⟨nodes, covering, short⟩ := enough
  refine ⟨nodes, fun node inner => covering node ?_, short⟩
  exact fun leaf => inner (List.reverse_eq_nil_iff.mpr leaf)

/-- What a walk has seen in the end if these nodes are on its stack, the top one first, and those
have been seen. -/
def seenAfter (depth : Nat) (pending seen : List α) : List α :=
  pending.foldl (visit (lastFirst next) depth) seen

/-- Where a depth suffices for the nodes that a walk starts from, a greater one finds no more. -/
theorem foldl_visit_succ {depth : Nat}
    (single : ∀ seen node, Suffices next depth seen →
      visit next (depth + 1) seen node = visit next depth seen node)
    (nodes seen : List α) (enough : Suffices next depth seen) :
    nodes.foldl (visit next (depth + 1)) seen = nodes.foldl (visit next depth) seen := by
  induction nodes generalizing seen with
  | nil => rfl
  | cons node rest inductionHypothesis =>
    have grown := (suffix_visit next depth seen node).subset
    rw [List.foldl_cons, List.foldl_cons, single seen node enough]
    exact inductionHypothesis _ (enough.mono next grown)

theorem visit_succ_of_suffices {depth : Nat} {seen : List α} (enough : Suffices next depth seen)
    (node : α) : visit next (depth + 1) seen node = visit next depth seen node := by
  induction depth generalizing seen node with
  | zero =>
    obtain ⟨nodes, _, short⟩ := enough
    exact absurd short (Nat.not_lt_zero _)
  | succ depth inductionHypothesis =>
    by_cases known : node ∈ seen
    · rw [visit_of_mem next known, visit_of_mem next known]
    · rw [visit_succ_of_not_mem next known, visit_succ_of_not_mem next known]
      by_cases leaf : next node = []
      · rw [leaf]
        rfl
      · exact foldl_visit_succ next (fun _ node enough => inductionHypothesis enough node)
          (next node) (node :: seen) (enough.enter next known leaf)

variable {depth : Nat} {seen : List α} {node : α}

theorem seenAfter_known (known : node ∈ seen) (rest : List α) :
    seenAfter next depth (node :: rest) seen = seenAfter next depth rest seen := by
  rw [seenAfter, List.foldl_cons, visit_of_mem _ known]
  rfl

theorem seenAfter_new (enough : Suffices next depth seen) (new : node ∉ seen) (rest : List α) :
    seenAfter next depth (node :: rest) seen =
      seenAfter next depth ((next node).reverse ++ rest) (node :: seen) := by
  rw [seenAfter, List.foldl_cons, ← visit_succ_of_suffices _ enough.lastFirst,
    visit_succ_of_not_mem _ new, seenAfter, List.foldl_append]
  rfl

theorem subset_seenAfter (pending : List α) : seen ⊆ seenAfter next depth pending seen :=
  (suffix_foldl_visit (lastFirst next) depth pending seen).subset

/-- What holds when the stack is empty, and holds before each round if it does after it, holds from
the start. The outer induction is on the unseen nodes, the inner one on the stack. -/
theorem stack_induction {motive : List α → List α → Prop} (enough : Suffices next depth seen)
    (empty : ∀ seen, motive [] seen)
    (known : ∀ node rest seen, node ∈ seen → motive rest seen → motive (node :: rest) seen)
    (new : ∀ node rest seen, node ∉ seen → motive ((next node).reverse ++ rest) (node :: seen) →
      motive (node :: rest) seen)
    (pending : List α) : motive pending seen := by
  induction depth generalizing seen pending with
  | zero =>
    obtain ⟨nodes, _, short⟩ := enough
    exact absurd short (Nat.not_lt_zero _)
  | succ depth inductionHypothesis =>
    induction pending generalizing seen with
    | nil => exact empty seen
    | cons node rest shorterStack =>
      by_cases seenBefore : node ∈ seen
      · exact known node rest seen seenBefore (shorterStack enough)
      · apply new node rest seen seenBefore
        by_cases leaf : next node = []
        · rw [leaf]
          exact shorterStack (enough.mono next (List.subset_cons_self node seen))
        · exact inductionHypothesis (enough.enter next seenBefore leaf) _

theorem mem_seenAfter_iff (enough : Suffices next depth []) (starts : List α) (found : α) :
    found ∈ seenAfter next depth starts [] ↔ ∃ start ∈ starts, Reaches next start found := by
  rw [← reaches_lastFirst, ← mem_reachable_iff _ enough.lastFirst, reachable, List.mem_reverse]
  rfl

end Walk

end Relocation
