import Mathlib.Data.List.Infix
import Relocation.Text.Template
set_option autoImplicit false

/-!
Replacement in a text, step by step and in texts that are put together.

Where a text begins with the pattern, the replacement takes its place; otherwise the first character
is kept. Two texts in a row are replaced each for itself if the pattern cannot reach across the
border between them.
-/

namespace Relocation.Text

variable {pattern replacement : List Char}

theorem replaceFrom_eq (skip : Nat) (text : List Char) :
    replaceFrom pattern replacement skip text =
      replaceAll pattern replacement (text.drop skip) := by
  induction skip generalizing text with
  | zero => rfl
  | succ skip inductionHypothesis =>
    cases text with
    | nil => rfl
    | cons c rest => exact inductionHypothesis rest

theorem replaceAll_pattern_append (nonempty : pattern ≠ []) (after : List Char) :
    replaceAll pattern replacement (pattern ++ after) =
      replacement ++ replaceAll pattern replacement after := by
  obtain ⟨c, rest, rfl⟩ := List.exists_cons_of_ne_nil nonempty
  have starts : (c :: rest).isPrefixOf (c :: (rest ++ after)) = true :=
    List.isPrefixOf_iff_prefix.mpr (List.prefix_append _ _)
  rw [List.cons_append, replaceAll, replaceFrom, if_pos starts, replaceFrom_eq, List.length_cons,
    Nat.add_sub_cancel, List.drop_left]

theorem replaceAll_cons_of_not_starts {c : Char} {rest : List Char}
    (other : ¬ pattern <+: c :: rest) :
    replaceAll pattern replacement (c :: rest) = c :: replaceAll pattern replacement rest := by
  have differs : ¬ pattern.isPrefixOf (c :: rest) = true :=
    fun starts => other (List.isPrefixOf_iff_prefix.mp starts)
  rw [replaceAll, replaceFrom, if_neg differs]
  rfl

theorem replaceAll_cons_of_ne {first c : Char} (other : first ≠ c) (rest : List Char) :
    replaceAll (first :: pattern) replacement (c :: rest) =
      c :: replaceAll (first :: pattern) replacement rest :=
  replaceAll_cons_of_not_starts fun starts => other (List.cons_prefix_cons.mp starts).1

theorem replaceAll_cons (nonempty : pattern ≠ []) (c : Char) (rest : List Char) :
    (∃ after, c :: rest = pattern ++ after ∧
        replaceAll pattern replacement (c :: rest) =
          replacement ++ replaceAll pattern replacement after) ∨
      replaceAll pattern replacement (c :: rest) = c :: replaceAll pattern replacement rest := by
  by_cases here : pattern <+: c :: rest
  · obtain ⟨after, whole⟩ := here
    refine Or.inl ⟨after, whole.symm, ?_⟩
    rw [← whole, replaceAll_pattern_append nonempty]
  · exact Or.inr (replaceAll_cons_of_not_starts here)

theorem replaceAll_append_of_not_mem {first : Char} {before : List Char} (absent : first ∉ before)
    (rest : List Char) :
    replaceAll (first :: pattern) replacement (before ++ rest) =
      before ++ replaceAll (first :: pattern) replacement rest := by
  induction before with
  | nil => rfl
  | cons c before inductionHypothesis =>
    rw [List.mem_cons, not_or] at absent
    obtain ⟨other, absent⟩ := absent
    rw [List.cons_append, replaceAll_cons_of_ne other, inductionHypothesis absent, List.cons_append]

/-- A pattern that does not reach into the second of two texts stands in the first. -/
theorem prefix_of_prefix_append {before after : List Char}
    (apart : ∀ c ∈ after.head?, c ∉ pattern) (starts : pattern <+: before ++ after) :
    pattern <+: before := by
  rcases List.prefix_or_prefix_of_prefix starts (List.prefix_append before after) with
    within | ⟨extra, rfl⟩
  · exact within
  · have reaching := (List.prefix_append_right_inj before).mp starts
    cases extra with
    | nil => exact (List.append_nil before).symm ▸ List.prefix_rfl
    | cons c extra =>
      obtain ⟨after, rfl⟩ := reaching
      exact absurd (List.mem_append_right before List.mem_cons_self) (apart c rfl)

/-- A text whose first character is not in the pattern is changed apart from what stands before it. -/
theorem replaceAll_append (nonempty : pattern ≠ []) {after : List Char}
    (apart : ∀ c ∈ after.head?, c ∉ pattern) (before : List Char) :
    replaceAll pattern replacement (before ++ after) =
      replaceAll pattern replacement before ++ replaceAll pattern replacement after := by
  induction size : before.length using Nat.strongRecOn generalizing before with
  | ind size inductionHypothesis =>
    subst size
    cases before with
    | nil => rfl
    | cons c rest =>
      by_cases starts : pattern <+: c :: rest
      · obtain ⟨middle, whole⟩ := starts
        have shorter : middle.length < (c :: rest).length := by
          have spelled := List.length_pos_iff.mpr nonempty
          rw [← whole, List.length_append]
          omega
        rw [← whole, List.append_assoc, replaceAll_pattern_append nonempty,
          replaceAll_pattern_append nonempty, inductionHypothesis _ shorter middle rfl,
          List.append_assoc]
      · have still : ¬ pattern <+: c :: (rest ++ after) :=
          fun reaching => starts (prefix_of_prefix_append apart reaching)
        rw [List.cons_append, replaceAll_cons_of_not_starts still,
          replaceAll_cons_of_not_starts starts, List.cons_append,
          inductionHypothesis _ (Nat.lt_succ_self _) rest rfl]

theorem replaceAll_of_absent {text : List Char} (absent : ¬ pattern <:+: text) :
    replaceAll pattern replacement text = text := by
  induction text with
  | nil => rfl
  | cons c rest inductionHypothesis =>
    rw [replaceAll_cons_of_not_starts fun starts => absent starts.isInfix,
      inductionHypothesis fun within => absent (List.infix_cons within)]

theorem isDigit_of_mem_toString {index : Nat} {c : Char} (digit : c ∈ (toString index).toList) :
    c.isDigit = true := by
  rw [Nat.toString_eq_repr, Nat.toList_repr] at digit
  exact Nat.isDigit_of_mem_toDigits (by decide) (by decide) digit

theorem mem_placeholder {index : Nat} {c : Char} (part : c ∈ placeholder index) :
    c = '{' ∨ c.isDigit = true ∨ c = '}' := by
  rcases List.mem_cons.mp part with opening | part
  · exact Or.inl opening
  · rcases List.mem_append.mp part with digit | closing
    · exact Or.inr (Or.inl (isDigit_of_mem_toString digit))
    · exact Or.inr (Or.inr (List.mem_singleton.mp closing))

theorem placeholder_ne_nil (index : Nat) : placeholder index ≠ [] := List.cons_ne_nil _ _

end Relocation.Text
