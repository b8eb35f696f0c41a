import Mathlib.Data.List.Nodup
import Mathlib.Logic.Relation
import Relocation.Walk
set_option autoImplicit false

/-!
What a depth-first walk finds. A walk adds new nodes in front of those seen before, each once, and
only nodes that can be reached from its start.

A walk also finds everything there is to find if its depth exceeds the number of unseen nodes with
successors: of any node that it adds, it has all successors in the end. The induction is on the
depth; each node entered leaves one unseen node less for the walk below it.
-/

namespace Relocation.Walk

variable {α : Type}

def Reaches (next : α → List α) : α → α → Prop :=
  Relation.ReflTransGen fun node other => other ∈ next node

theorem Reaches.stays {next : α → List α} {node other : α} (reached : Reaches next node other)
    (keeps : α → Prop) (closed : ∀ node, keeps node → ∀ other ∈ next node, keeps other)
    (start : keeps node) : keeps other := by
  induction reached with
  | refl => exact start
  | tail _ successive inductionHypothesis => exact closed _ inductionHypothesis _ successive

variable [DecidableEq α] (next : α → List α)

theorem visit_of_mem {depth : Nat} {seen : List α} {node : α} (known : node ∈ seen) :
    visit next depth seen node = seen := by
  cases depth with
  | zero => rfl
  | succ depth => simp [visit, known]

theorem visit_succ_of_not_mem {depth : Nat} {seen : List α} {node : α} (new : node ∉ seen) :
    visit next (depth + 1) seen node = (next node).foldl (visit next depth) (node :: seen) := by
  simp [visit, new]

omit [DecidableEq α] in
theorem foldl_suffix {step : List α → α → List α}
    (grows : ∀ seen node, seen <:+ step seen node) (nodes seen : List α) :
    seen <:+ nodes.foldl step seen := by
  induction nodes generalizing seen with
  | nil => exact List.suffix_refl seen
  | cons node rest inductionHypothesis =>
    exact (grows seen node).trans (inductionHypothesis (step seen node))

theorem suffix_visit (depth : Nat) (seen : List α) (node : α) :
    seen <:+ visit next depth seen node := by
  induction depth generalizing seen node with
  | zero => exact List.suffix_refl seen
  | succ depth inductionHypothesis =>
    by_cases known : node ∈ seen
    · simp only [visit_of_mem next known, List.suffix_refl]
    · rw [visit_succ_of_not_mem next known]
      exact (List.suffix_cons node seen).trans
        (foldl_suffix (fun seen node => inductionHypothesis seen node) (next node) _)

theorem suffix_foldl_visit (depth : Nat) (nodes seen : List α) :
    seen <:+ nodes.foldl (visit next depth) seen :=
  foldl_suffix (suffix_visit next depth) nodes seen

theorem nodup_visit (depth : Nat) {seen : List α} (distinct : seen.Nodup) (node : α) :
    (visit next depth seen node).Nodup := by
  induction depth generalizing seen node with
  | zero => exact distinct
  | succ depth inductionHypothesis =>
    by_cases known : node ∈ seen
    · rwa [visit_of_mem next known]
    · rw [visit_succ_of_not_mem next known]
      exact List.foldlRecOn (next node) (visit next depth) (List.nodup_cons.mpr ⟨known, distinct⟩)
        fun seen distinct other _ => inductionHypothesis distinct other

theorem nodup_reachable (depth : Nat) (starts : List α) : (reachable next depth starts).Nodup :=
  List.nodup_reverse.mpr <| List.foldlRecOn starts (visit next depth) List.nodup_nil
    fun _ distinct node _ => nodup_visit next depth distinct node

/-- A walk finds nothing but what was seen before it and what its start reaches. -/
theorem reaches_of_mem_visit {depth : Nat} {seen : List α} {node found : α}
    (member : found ∈ visit next depth seen node) : found ∈ seen ∨ Reaches next node found := by
  induction depth generalizing seen node found with
  | zero => exact Or.inl member
  | succ depth inductionHypothesis =>
    by_cases known : node ∈ seen
    · rw [visit_of_mem next known] at member
      exact Or.inl member
    · rw [visit_succ_of_not_mem next known] at member
      revert found
      -- Every list of nodes seen on the way, through all successors, is sound.
      refine List.foldlRecOn (next node) (visit next depth)
        (motive := fun reached =>
          ∀ {found}, found ∈ reached → found ∈ seen ∨ Reaches next node found)
        ?_ ?_
      · intro found member
        rcases List.mem_cons.mp member with rfl | member
        · exact Or.inr Relation.ReflTransGen.refl
        · exact Or.inl member
      · intro reached sound successor successive found member
        rcases inductionHypothesis member with member | below
        · exact sound member
        · exact Or.inr (Relation.ReflTransGen.head successive below)

/-- A depth that no path of unseen nodes with successors can use up. -/
def Suffices (depth : Nat) (seen : List α) : Prop :=
  ∃ nodes : List α, (∀ node, next node ≠ [] → node ∈ nodes) ∧
    (nodes.filter fun node => node ∉ seen).length < depth

theorem Suffices.mono {depth : Nat} {seen more : List α} (enough : Suffices next depth seen)
    (grown : seen ⊆ more) : Suffices next depth more := by
  rcases enough with ⟨nodes, covering, short⟩
  refine ⟨nodes, covering, Nat.lt_of_le_of_lt ?_ short⟩
  apply List.Sublist.length_le
  apply List.monotone_filter_right
  intro node unseen
  simp only [decide_eq_true_eq] at unseen ⊢
  exact fun member => unseen (grown member)

theorem Suffices.enter {depth : Nat} {seen : List α} {node : α}
    (enough : Suffices next (depth + 1) seen) (new : node ∉ seen) (inner : next node ≠ []) :
    Suffices next depth (node :: seen) := by
  rcases enough with ⟨nodes, covering, short⟩
  refine ⟨nodes, covering, ?_⟩
  have fewer : (nodes.filter fun other => other ∉ node :: seen).length <
      (nodes.filter fun other => other ∉ seen).length := by
    have entered : node ∈ nodes.filter fun other => other ∉ seen := by
      simp [covering node inner, new]
    have split : (nodes.filter fun other => other ∉ node :: seen) =
        (nodes.filter fun other => other ∉ seen).filter fun other => other ≠ node := by
      simp [List.filter_filter]
    rw [split]
    exact List.length_filter_lt_length_iff_exists.mpr ⟨node, entered, by simp⟩
  omega

/-- A walk through some nodes found these, and all successors of what it added. -/
structure Found (seen nodes result : List α) : Prop where
  starts : ∀ node ∈ nodes, node ∈ result
  closed : ∀ node ∈ result, node ∉ seen → ∀ other ∈ next node, other ∈ result

theorem found_foldl {depth : Nat}
    (single : ∀ seen node, Suffices next depth seen →
      Found next seen [node] (visit next depth seen node))
    (nodes seen : List α) (enough : Suffices next depth seen) :
    Found next seen nodes (nodes.foldl (visit next depth) seen) := by
  induction nodes generalizing seen with
  | nil => exact ⟨by simp, fun node member unseen => absurd member unseen⟩
  | cons first rest inductionHypothesis =>
    have grown := (suffix_visit next depth seen first).subset
    have kept := (suffix_foldl_visit next depth rest (visit next depth seen first)).subset
    have head := single seen first enough
    have tail := inductionHypothesis (visit next depth seen first) (enough.mono next grown)
    constructor
    · intro node member
      rcases List.mem_cons.mp member with rfl | member
      · exact kept (head.starts _ (List.mem_singleton_self _))
      · exact tail.starts node member
    · intro node member unseen other successive
      by_cases early : node ∈ visit next depth seen first
      · exact kept (head.closed node early unseen other successive)
      · exact tail.closed node member early other successive

theorem found_visit {depth : Nat} {seen : List α} (node : α) (enough : Suffices next depth seen) :
    Found next seen [node] (visit next depth seen node) := by
  induction depth generalizing seen node with
  | zero =>
    rcases enough with ⟨nodes, _, short⟩
    exact absurd short (Nat.not_lt_zero _)
  | succ depth inductionHypothesis =>
    by_cases known : node ∈ seen
    · rw [visit_of_mem next known]
      exact ⟨by simpa using known, fun node member unseen => absurd member unseen⟩
    · rw [visit_succ_of_not_mem next known]
      by_cases leaf : next node = []
      · rw [leaf]
        constructor
        · simp
        · intro found member unseen
          rcases List.mem_cons.mp member with rfl | member
          · simp [leaf]
          · exact absurd member unseen
      · have below := found_foldl next (fun _ => inductionHypothesis) (next node) (node :: seen)
          (enough.enter next known leaf)
        have start := (suffix_foldl_visit next depth (next node) (node :: seen)).subset
          (List.mem_cons_self ..)
        constructor
        · simpa using start
        · intro found member unseen other successive
          by_cases same : found = node
          · subst found
            exact below.starts other successive
          · have fresh : found ∉ node :: seen := by simp [same, unseen]
            exact below.closed found member fresh other successive

/-- A walk finds exactly what its start reaches, if what was seen of that before has all its
successors. -/
theorem mem_visit_iff {depth : Nat} {seen : List α} (enough : Suffices next depth seen) (node : α)
    (closed : ∀ early ∈ seen, Reaches next node early → ∀ other ∈ next early, other ∈ seen)
    (found : α) :
    found ∈ visit next depth seen node ↔ found ∈ seen ∨ Reaches next node found := by
  have complete := found_visit next node enough
  have kept := (suffix_visit next depth seen node).subset
  constructor
  · exact reaches_of_mem_visit next
  · rintro (member | reached)
    · exact kept member
    · induction reached with
      | refl => exact complete.starts node (List.mem_singleton_self _)
      | @tail before after reachedBefore successive inductionHypothesis =>
        by_cases early : before ∈ seen
        · exact kept (closed before early reachedBefore after successive)
        · exact complete.closed before inductionHypothesis early after successive

/-- A walk from several nodes finds exactly what one of them reaches. -/
theorem mem_reachable_iff {depth : Nat} (enough : Suffices next depth []) (starts : List α)
    (found : α) :
    found ∈ reachable next depth starts ↔ ∃ start ∈ starts, Reaches next start found := by
  unfold reachable
  rw [List.mem_reverse]
  constructor
  · revert found
    refine List.foldlRecOn starts (visit next depth)
      (motive := fun reached =>
        ∀ found ∈ reached, ∃ start ∈ starts, Reaches next start found)
      (fun _ member => nomatch member) ?_
    intro reached sound start listed found member
    rcases reaches_of_mem_visit next member with early | below
    · exact sound found early
    · exact ⟨start, listed, below⟩
  · rintro ⟨start, listed, reached⟩
    have complete := found_foldl next (fun _ => found_visit next) starts [] enough
    induction reached with
    | refl => exact complete.starts start listed
    | tail _ successive inductionHypothesis =>
      exact complete.closed _ inductionHypothesis List.not_mem_nil _ successive

end Relocation.Walk
