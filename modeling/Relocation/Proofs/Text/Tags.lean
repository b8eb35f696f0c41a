import Mathlib.Data.List.Basic
import Relocation.Check.Message
import Relocation.Check.Describe
import Relocation.Proofs.Text.Replacement
set_option autoImplicit false

/-!
Texts in HTML: characters without a meaning there, and the two tags that set off names. Escaped
names are such texts, messages filled with such texts are again, and once the tags are taken out
nothing is left of the markup.
-/

namespace Relocation.Text

def isMarkup (c : Char) : Bool := c == '<' || c == '>' || c == '"'

def Plain (text : List Char) : Prop := ∀ c ∈ text, isMarkup c = false

instance (text : List Char) : Decidable (Plain text) :=
  List.decidableBAll (fun c => isMarkup c = false) text

def openingTag : List Char := ['<', 'b', '>', '<', 'c', 'o', 'd', 'e', '>']

def closingTag : List Char := ['<', '/', 'c', 'o', 'd', 'e', '>', '<', '/', 'b', '>']

/-- The text without its tags. -/
def withoutTags (text : String) : List Char :=
  replaceAll closingTag [] (replaceAll openingTag [] text.toList)

/-- A text made of characters without a meaning in HTML and of whole tags. -/
inductive Marked (tags : List (List Char)) : List Char → Prop
  | nil : Marked tags []
  | char {c : Char} {rest : List Char} :
      isMarkup c = false → Marked tags rest → Marked tags (c :: rest)
  | tag {tag rest : List Char} : tag ∈ tags → Marked tags rest → Marked tags (tag ++ rest)

def nameTags : List (List Char) := [openingTag, closingTag]

variable {tags : List (List Char)} {text : List Char}

theorem Plain.append {more : List Char} (first : Plain text) (second : Plain more) :
    Plain (text ++ more) :=
  List.forall_mem_append.mpr ⟨first, second⟩

theorem Plain.marked (plain : Plain text) : Marked tags text := by
  induction text with
  | nil => exact .nil
  | cons c rest inductionHypothesis =>
    obtain ⟨here, later⟩ := List.forall_mem_cons.mp plain
    exact .char here (inductionHypothesis later)

namespace Marked

theorem append {more : List Char} (first : Marked tags text) (second : Marked tags more) :
    Marked tags (text ++ more) := by
  induction first with
  | nil => exact second
  | char plain _ inductionHypothesis => exact .char plain inductionHypothesis
  | tag listed _ inductionHypothesis =>
    rw [List.append_assoc]
    exact .tag listed inductionHypothesis

theorem plain (marked : Marked [] text) : Plain text := by
  induction marked with
  | nil => exact List.forall_mem_nil _
  | char here _ inductionHypothesis => exact List.forall_mem_cons.mpr ⟨here, inductionHypothesis⟩
  | tag listed => cases listed

end Marked

theorem tag_starts {tag : List Char} (listed : tag ∈ nameTags) : ∃ more, tag = '<' :: more := by
  rcases List.mem_pair.mp listed with rfl | rfl
  · exact ⟨_, rfl⟩
  · exact ⟨_, rfl⟩

theorem Marked.of_cons {c : Char} {rest : List Char} (plain : isMarkup c = false)
    (marked : Marked nameTags (c :: rest)) : Marked nameTags rest := by
  generalize whole : c :: rest = text at marked
  cases marked with
  | nil => cases whole
  | char _ later =>
    cases whole
    exact later
  | tag listed _ =>
    obtain ⟨more, rfl⟩ := tag_starts listed
    cases whole
    cases plain

theorem Marked.of_append {before after : List Char} (plain : Plain before)
    (marked : Marked nameTags (before ++ after)) : Marked nameTags after := by
  induction before with
  | nil => exact marked
  | cons c before inductionHypothesis =>
    obtain ⟨here, later⟩ := List.forall_mem_cons.mp plain
    exact inductionHypothesis later (marked.of_cons here)

/-- A pattern without markup whose first character is in no tag is replaced between the tags. -/
theorem Marked.replaceAll {pattern replacement : List Char} {first : Char} (plain : Plain (first :: pattern))
    (clear : ∀ tag ∈ nameTags, first ∉ tag) (filler : Marked nameTags replacement)
    (marked : Marked nameTags text) :
    Marked nameTags (replaceAll (first :: pattern) replacement text) := by
  induction size : text.length using Nat.strongRecOn generalizing text with
  | ind count inductionHypothesis =>
    subst size
    cases marked with
    | nil => exact .nil
    | @char c rest here later =>
      have shorter : rest.length < (c :: rest).length := Nat.lt_succ_self _
      rcases replaceAll_cons (List.cons_ne_nil first pattern) c rest with
        ⟨after, split, replaced⟩ | kept
      · rw [replaced]
        have rest : Marked nameTags after := by
          apply Marked.of_append plain
          rw [← split]
          exact .char here later
        refine filler.append (inductionHypothesis _ ?_ rest rfl)
        rw [split, List.length_append, List.length_cons]
        omega
      · rw [kept]
        exact .char here (inductionHypothesis _ shorter later rfl)
    | @tag tag rest listed later =>
      rw [replaceAll_append_of_not_mem (clear tag listed)]
      obtain ⟨more, starts⟩ := tag_starts listed
      refine .tag listed (inductionHypothesis _ ?_ later rfl)
      rw [starts, List.length_append, List.length_cons]
      omega

theorem plain_digits (index : Nat) : Plain (toString index).toList := by
  intro c digit
  have isDigit := isDigit_of_mem_toString digit
  by_contra markup
  simp only [isMarkup, Bool.not_eq_false, Bool.or_eq_true, beq_iff_eq, or_assoc] at markup
  rcases markup with rfl | rfl | rfl <;> cases isDigit

theorem plain_placeholder (index : Nat) : Plain (placeholder index) :=
  List.forall_mem_cons.mpr ⟨rfl, (plain_digits index).append (by decide)⟩

/-- A plain template that is filled with marked texts is a marked text, also where one of them
spells the placeholder of another. -/
theorem Marked.fillFrom {arguments : List String}
    (fillers : ∀ argument ∈ arguments, Marked nameTags argument.toList) (index : Nat)
    (marked : Marked nameTags text) : Marked nameTags (fillFrom index text arguments) := by
  induction arguments generalizing index text with
  | nil => exact marked
  | cons argument rest inductionHypothesis =>
    obtain ⟨here, later⟩ := List.forall_mem_cons.mp fillers
    exact inductionHypothesis later (index + 1)
      (.replaceAll (plain_placeholder index) (by decide) here marked)

theorem plain_of_toNat {c : Char} (beyond : 0x3E < c.toNat) : isMarkup c = false := by
  by_contra markup
  simp only [isMarkup, Bool.not_eq_false, Bool.or_eq_true, beq_iff_eq, or_assoc] at markup
  rcases markup with rfl | rfl | rfl <;> exact absurd beyond (by decide)

/-- Beyond the markup's last character, and also where the number is no character at all. -/
theorem plain_ofNat {point : Nat} (beyond : 0x3E < point) :
    isMarkup (Char.ofNat point) = false := by
  by_cases valid : point.isValidChar
  · apply plain_of_toNat
    rw [Char.ofNat, dif_pos valid]
    exact beyond
  · rw [Char.ofNat, dif_neg valid]
    decide

theorem capitalExpansions_beyond :
    ∀ expansion ∈ capitalExpansions, ∀ point ∈ expansion.2, 0x3E < point := by
  decide +kernel

theorem capitalRuns_beyond : ∀ run ∈ capitalRuns, 0x3E < run.first + run.shift := by
  decide +kernel

/-- Capitals lie beyond the characters of the markup. -/
theorem plain_uppercase {c : Char} (plain : isMarkup c = false) : Plain (uppercase c) := by
  unfold uppercase
  split
  next points listed =>
    obtain ⟨before, after, whole, -⟩ := List.lookup_eq_some_iff.mp listed
    have member : (c.toNat, points) ∈ capitalExpansions :=
      whole ▸ List.mem_append_right before List.mem_cons_self
    intro capital among
    obtain ⟨point, here, rfl⟩ := List.mem_map.mp among
    exact plain_ofNat (capitalExpansions_beyond _ member point here)
  · split
    next run found =>
      have beyond := capitalRuns_beyond run (List.mem_of_find?_eq_some found)
      have within := List.find?_some found
      simp only [CapitalRun.contains, Bool.and_eq_true, decide_eq_true_eq] at within
      refine List.forall_mem_singleton.mpr (plain_ofNat ?_)
      omega
    · exact List.forall_mem_singleton.mpr plain

theorem Marked.capitalize {text : String} (marked : Marked nameTags text.toList) :
    Marked nameTags (capitalize text).toList := by
  unfold Text.capitalize
  cases chars : text.toList with
  | nil => exact .nil
  | cons c rest =>
    rw [chars] at marked
    rw [String.toList_ofList]
    by_cases plain : isMarkup c = false
    · exact (plain_uppercase plain).marked.append (marked.of_cons plain)
    · -- Only a tag begins with markup, and its first character stays as it is.
      have starts : c = '<' := by
        generalize whole : c :: rest = text at marked
        cases marked with
        | nil => cases whole
        | char here _ =>
          cases whole
          exact absurd here plain
        | tag listed _ =>
          obtain ⟨more, rfl⟩ := tag_starts listed
          exact (List.cons.inj whole).1
      have same : uppercase '<' = ['<'] := by decide +kernel
      rw [starts, same]
      exact starts ▸ marked

theorem Marked.withoutOpening (marked : Marked nameTags text) :
    Marked [closingTag] (Text.replaceAll openingTag [] text) := by
  induction marked with
  | nil => exact .nil
  | @char c _ plain _ inductionHypothesis =>
    have other : '<' ≠ c := by
      rintro rfl
      cases plain
    rw [openingTag, replaceAll_cons_of_ne other]
    exact .char plain inductionHypothesis
  | tag listed _ inductionHypothesis =>
    rcases List.mem_pair.mp listed with rfl | rfl
    · exact inductionHypothesis
    · exact .tag (List.mem_singleton.mpr rfl) inductionHypothesis

theorem Marked.withoutClosing (marked : Marked [closingTag] text) :
    Marked [] (Text.replaceAll closingTag [] text) := by
  induction marked with
  | nil => exact .nil
  | @char c _ plain _ inductionHypothesis =>
    have other : '<' ≠ c := by
      rintro rfl
      cases plain
    rw [closingTag, replaceAll_cons_of_ne other]
    exact .char plain inductionHypothesis
  | tag listed _ inductionHypothesis =>
    cases List.mem_singleton.mp listed
    exact inductionHypothesis

theorem Marked.plain_withoutTags {text : String} (marked : Marked nameTags text.toList) :
    Plain (withoutTags text) :=
  marked.withoutOpening.withoutClosing.plain

end Relocation.Text
