import Mathlib.Data.List.Basic
import Mathlib.Data.List.Nodup
set_option autoImplicit false

/-!
Lists from which repetitions were dropped, all of them or those next to each other. Each statement
is first one about the loop behind the operation, which has a part of its result already.
-/

namespace Relocation.Repetition

variable {α : Type}

private theorem eraseDupsLoop_sublist (same : α → α → Bool) (rest kept : List α) :
    (List.eraseDupsBy.loop same rest kept).Sublist (kept.reverse ++ rest) := by
  induction rest generalizing kept with
  | nil => simp [List.eraseDupsBy.loop]
  | cons item rest inductionHypothesis =>
    unfold List.eraseDupsBy.loop
    split
    · exact (inductionHypothesis kept).trans (List.sublist_cons_self item rest |>.append_left _)
    · simpa using inductionHypothesis (item :: kept)

theorem eraseDupsBy_sublist (same : α → α → Bool) (items : List α) :
    (items.eraseDupsBy same).Sublist items := by
  simpa [List.eraseDupsBy] using eraseDupsLoop_sublist same items []

variable [BEq α] [LawfulBEq α]

private theorem nodup_eraseDupsLoop (rest kept : List α) (distinct : kept.Nodup) :
    (List.eraseDupsBy.loop (· == ·) rest kept).Nodup := by
  induction rest generalizing kept with
  | nil => simpa [List.eraseDupsBy.loop] using distinct
  | cons item rest inductionHypothesis =>
    unfold List.eraseDupsBy.loop
    split
    · exact inductionHypothesis kept distinct
    next fresh =>
      have differs : ∀ other ∈ kept, item ≠ other := by simpa using fresh
      have new : item ∉ kept := fun member => differs item member rfl
      exact inductionHypothesis (item :: kept) (List.nodup_cons.mpr ⟨new, distinct⟩)

theorem nodup_eraseDups (items : List α) : items.eraseDups.Nodup :=
  nodup_eraseDupsLoop items [] List.nodup_nil

private theorem mem_eraseRepsLoop (item first : α) (rest kept : List α) :
    item ∈ List.eraseRepsBy.loop (· == ·) first rest kept ↔
      item = first ∨ item ∈ rest ∨ item ∈ kept := by
  induction rest generalizing first kept with
  | nil => simp [List.eraseRepsBy.loop, or_comm]
  | cons next rest inductionHypothesis =>
    unfold List.eraseRepsBy.loop
    cases repeated : first == next with
    | true =>
      have equal : first = next := eq_of_beq repeated
      simp only [inductionHypothesis, equal, List.mem_cons]
      tauto
    | false =>
      simp only [inductionHypothesis, List.mem_cons]
      tauto

@[simp]
theorem mem_eraseReps (item : α) (items : List α) : item ∈ items.eraseReps ↔ item ∈ items := by
  cases items with
  | nil => simp [List.eraseReps, List.eraseRepsBy]
  | cons first rest => simp [List.eraseReps, List.eraseRepsBy, mem_eraseRepsLoop]

end Relocation.Repetition
