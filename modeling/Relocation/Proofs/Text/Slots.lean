import Mathlib.Data.List.Chain
import Relocation.Proofs.Text.Replacement
set_option autoImplicit false

/-!
What becomes of the arguments of a template.

A template that is read once, before anything is put into it, is made of characters and of places for
arguments, and the arguments are put into the places. Arguments that are put in one after the other
come to the same, provided that the places stand apart, but each is put into the arguments before it
as well: an argument that spells the placeholder of a later one is a template itself.
-/

namespace Relocation.Text

inductive Part where
  | char (c : Char)
  /-- The place of an argument. -/
  | slot (index : Nat)

def slotAt? : List Char → Option Nat
  | '{' :: rest =>
    let index := Nat.ofDigitChars 10 (rest.takeWhile Char.isDigit) 0
    if (placeholder index).isPrefixOf ('{' :: rest) then some index else none
  | _ => none

/-- Reads a text from left to right. `skip` counts the characters of a placeholder still to pass
over. -/
def partsFrom (skip : Nat) : List Char → List Part
  | [] => []
  | c :: rest =>
    match skip with
    | skip + 1 => partsFrom skip rest
    | 0 =>
      match slotAt? (c :: rest) with
      | some index => .slot index :: partsFrom ((placeholder index).length - 1) rest
      | none => .char c :: partsFrom 0 rest

def parts (template : String) : List Part := partsFrom 0 template.toList

def render (text : Nat → List Char) (parts : List Part) : List Char :=
  parts.flatMap fun
    | .char c => [c]
    | .slot index => text index

/-- What stands in the place of an argument: the argument, or the placeholder if there is none. -/
def textOf (arguments : List String) (index : Nat) : List Char :=
  (arguments[index]?.map String.toList).getD (placeholder index)

/-- The template with all arguments put into their places at once. -/
def fillAtOnce (template : String) (arguments : List String) : String :=
  String.ofList (render (textOf arguments) (parts template))

/-- The arguments from `index` on, each with those after it put into it. -/
def settleFrom (index : Nat) : List String → List String
  | [] => []
  | argument :: rest =>
    String.ofList (fillFrom (index + 1) argument.toList rest) :: settleFrom (index + 1) rest

def settle (arguments : List String) : List String := settleFrom 0 arguments

/-- No argument spells the placeholder of a later one. -/
def Settled (arguments : List String) : Prop :=
  ∀ index argument, arguments[index]? = some argument → ∀ later, index < later →
    later < arguments.length → ¬ placeholder later <:+: argument.toList

instance (arguments : List String) : Decidable (Settled arguments) :=
  decidable_of_iff
    (∀ index, ∀ inside : index < arguments.length, ∀ later < arguments.length, index < later →
      ¬ placeholder later <:+: arguments[index].toList) <| by
    constructor
    · intro settled index argument listed later after within
      obtain ⟨inside, rfl⟩ := List.getElem?_eq_some_iff.mp listed
      exact settled index inside later within after
    · intro settled index inside later within after
      exact settled index _ (List.getElem?_eq_getElem inside) later after within

def isSlotChar (c : Char) : Bool := c.isDigit || c == '{' || c == '}'

theorem isSlotChar_of_mem_placeholder {index : Nat} {c : Char} (part : c ∈ placeholder index) :
    isSlotChar c = true := by
  rcases mem_placeholder part with rfl | digit | rfl
  · rfl
  · simp [isSlotChar, digit]
  · rfl

theorem slotAt?_placeholder (index : Nat) (rest : List Char) :
    slotAt? (placeholder index ++ rest) = some index := by
  have spelled : placeholder index ++ rest = '{' :: ((toString index).toList ++ '}' :: rest) := by
    simp [placeholder]
  have digits : ((toString index).toList ++ '}' :: rest).takeWhile Char.isDigit =
      (toString index).toList := by
    rw [List.takeWhile_append_of_pos fun c digit => isDigit_of_mem_toString digit]
    simp
  have number : Nat.ofDigitChars 10 (toString index).toList 0 = index := by
    rw [Nat.toString_eq_repr, Nat.toList_repr]
    exact Nat.ofDigitChars_toDigits (by decide) (by decide)
  rw [spelled, slotAt?]
  simp only [digits, number]
  rw [← spelled, if_pos (List.isPrefixOf_iff_prefix.mpr (List.prefix_append _ _))]

theorem slotAt?_eq_some_iff {text : List Char} {index : Nat} :
    slotAt? text = some index ↔ placeholder index <+: text := by
  constructor
  · intro found
    unfold slotAt? at found
    split at found
    · obtain ⟨starts, same⟩ := Option.ite_none_right_eq_some.mp found
      cases same
      exact List.isPrefixOf_iff_prefix.mp starts
    · cases found
  · rintro ⟨rest, rfl⟩
    exact slotAt?_placeholder index rest

theorem eq_of_placeholder_starts {index other : Nat}
    (starts : placeholder index <+: placeholder other) : index = other := by
  have found := slotAt?_eq_some_iff.mpr starts
  rw [← List.append_nil (placeholder other), slotAt?_placeholder] at found
  exact (Option.some.inj found).symm

theorem partsFrom_eq (skip : Nat) (text : List Char) :
    partsFrom skip text = partsFrom 0 (text.drop skip) := by
  induction skip generalizing text with
  | zero => rfl
  | succ skip inductionHypothesis =>
    cases text with
    | nil => rfl
    | cons c rest => exact inductionHypothesis rest

theorem partsFrom_placeholder (index : Nat) (rest : List Char) :
    partsFrom 0 (placeholder index ++ rest) = .slot index :: partsFrom 0 rest := by
  have starts : placeholder index ++ rest = '{' :: ((placeholder index).tail ++ rest) := rfl
  have passed : partsFrom ((placeholder index).length - 1) ((placeholder index).tail ++ rest) =
      partsFrom 0 rest := by
    rw [partsFrom_eq, ← List.length_tail, List.drop_left]
  rw [starts, partsFrom, ← starts, slotAt?_placeholder]
  exact congrArg (.slot index :: ·) passed

theorem partsFrom_cons {c : Char} {rest : List Char} (text : slotAt? (c :: rest) = none) :
    partsFrom 0 (c :: rest) = .char c :: partsFrom 0 rest := by
  rw [partsFrom, text]

theorem render_partsFrom (text : List Char) : render placeholder (partsFrom 0 text) = text := by
  induction size : text.length using Nat.strongRecOn generalizing text with
  | ind size inductionHypothesis =>
    subst size
    cases text with
    | nil => rfl
    | cons c rest =>
      cases found : slotAt? (c :: rest) with
      | none =>
        rw [partsFrom_cons found]
        exact congrArg (c :: ·) (inductionHypothesis _ (Nat.lt_succ_self _) rest rfl)
      | some index =>
        obtain ⟨after, whole⟩ := slotAt?_eq_some_iff.mp found
        have shorter : after.length < (c :: rest).length := by
          have spelled := List.length_pos_iff.mpr (placeholder_ne_nil index)
          rw [← whole, List.length_append]
          omega
        rw [← whole, partsFrom_placeholder]
        exact congrArg (placeholder index ++ ·) (inductionHypothesis _ shorter after rfl)

theorem replaceAll_placeholder_self (index : Nat) (replacement : List Char) :
    replaceAll (placeholder index) replacement (placeholder index) = replacement := by
  have whole : replaceAll (placeholder index) replacement (placeholder index ++ []) =
      replacement ++ [] := replaceAll_pattern_append (placeholder_ne_nil index) []
  rwa [List.append_nil, List.append_nil] at whole

/-- No placeholder stands in another one. -/
theorem eq_of_placeholder_within {index other : Nat}
    (within : placeholder index <:+: placeholder other) : index = other := by
  rcases List.infix_cons_iff.mp within with starts | later
  · exact eq_of_placeholder_starts starts
  · rcases List.mem_append.mp (later.subset List.mem_cons_self) with digit | closing
    · cases isDigit_of_mem_toString digit
    · cases List.mem_singleton.mp closing

theorem replaceAll_placeholder_of_ne {index other : Nat} (different : index ≠ other)
    (replacement : List Char) :
    replaceAll (placeholder index) replacement (placeholder other) = placeholder other :=
  replaceAll_of_absent fun within => different (eq_of_placeholder_within within)

@[simp]
theorem render_nil (text : Nat → List Char) : render text [] = [] := rfl

@[simp]
theorem render_char (text : Nat → List Char) (c : Char) (rest : List Part) :
    render text (.char c :: rest) = c :: render text rest := rfl

@[simp]
theorem render_slot (text : Nat → List Char) (index : Nat) (rest : List Part) :
    render text (.slot index :: rest) = text index ++ render text rest := rfl

def Part.isSlot : Part → Bool
  | char _ => false
  | slot _ => true

def Part.isClear : Part → Bool
  | char c => !isSlotChar c
  | slot _ => true

/-- Places with other text between them, and no other text that looks like a part of one. -/
def Apart (parts : List Part) : Prop :=
  (∀ part ∈ parts, part.isClear = true) ∧
    parts.IsChain fun one other => ¬ (one.isSlot = true ∧ other.isSlot = true)

instance (parts : List Part) : Decidable (Apart parts) := by
  unfold Apart
  infer_instance

theorem Apart.of_cons {part : Part} {rest : List Part} (apart : Apart (part :: rest)) :
    Apart rest :=
  ⟨fun other listed => apart.1 other (List.mem_cons_of_mem part listed), apart.2.tail⟩

/-- What comes after a place is no part of a placeholder, whatever the places hold. -/
theorem Apart.head?_render {index : Nat} {rest : List Part} (apart : Apart (.slot index :: rest))
    (text : Nat → List Char) : ∀ c ∈ (render text rest).head?, isSlotChar c = false := by
  cases rest with
  | nil => simp
  | cons next rest =>
    cases next with
    | slot other => exact absurd ⟨rfl, rfl⟩ (List.isChain_cons_cons.mp apart.2).1
    | char c =>
      have clear := apart.1 (.char c) (by simp)
      simpa [Part.isClear] using clear

theorem replaceAll_render {parts : List Part} (apart : Apart parts) (index : Nat)
    (replacement : List Char) (text : Nat → List Char) :
    replaceAll (placeholder index) replacement (render text parts) =
      render (fun slot => replaceAll (placeholder index) replacement (text slot)) parts := by
  induction parts with
  | nil => rfl
  | cons part rest inductionHypothesis =>
    have later := inductionHypothesis apart.of_cons
    cases part with
    | char c =>
      have other : '{' ≠ c := by
        rintro rfl
        exact absurd (apart.1 _ List.mem_cons_self) (by decide)
      rw [render_char, render_char, ← later]
      exact replaceAll_cons_of_ne other _
    | slot slot =>
      have beyond : ∀ c ∈ (render text rest).head?, c ∉ placeholder index := by
        intro c next part
        have clear := apart.head?_render text c next
        rw [isSlotChar_of_mem_placeholder part] at clear
        cases clear
      rw [render_slot, render_slot, replaceAll_append (placeholder_ne_nil index) beyond, later]

theorem fillFrom_render {parts : List Part} (apart : Apart parts) (arguments : List String)
    (index : Nat) (text : Nat → List Char) :
    fillFrom index (render text parts) arguments =
      render (fun slot => fillFrom index (text slot) arguments) parts := by
  induction arguments generalizing index text with
  | nil => rfl
  | cons argument rest inductionHypothesis =>
    rw [fillFrom, replaceAll_render apart, inductionHypothesis]
    rfl

/-- An argument takes its place with those after it put into it. -/
theorem fillFrom_placeholder (index slot : Nat) (arguments : List String) :
    fillFrom index (placeholder (index + slot)) arguments =
      ((settleFrom index arguments)[slot]?.map String.toList).getD (placeholder (index + slot)) := by
  induction arguments generalizing index slot with
  | nil => rfl
  | cons argument rest inductionHypothesis =>
    cases slot with
    | zero =>
      have here : placeholder (index + 0) = placeholder index := rfl
      rw [fillFrom, here, replaceAll_placeholder_self]
      simp [settleFrom]
    | succ slot =>
      have next := inductionHypothesis (index + 1) slot
      rw [Nat.add_right_comm, Nat.add_assoc] at next
      rw [fillFrom, replaceAll_placeholder_of_ne (by omega), next, settleFrom,
        List.getElem?_cons_succ]

/-- Arguments that are put in one after the other take their places, settled. -/
theorem fill_eq_fillAtOnce {template : String} (apart : Apart (parts template))
    (arguments : List String) : fill template arguments = fillAtOnce template (settle arguments) := by
  have text : (fun slot => fillFrom 0 (placeholder slot) arguments) = textOf (settle arguments) := by
    funext slot
    have placed := fillFrom_placeholder 0 slot arguments
    rwa [Nat.zero_add] at placed
  rw [fill, fillAtOnce, ← text, ← fillFrom_render apart, parts, render_partsFrom]

/-- An argument may have several places, and a place no argument. -/
example : fillAtOnce "\x7b0\x7d uses \x7b1\x7d which \x7b0\x7d owns, \x7b2\x7d" ["f", "g"] =
    "f uses g which f owns, \x7b2\x7d" := by
  decide

theorem fillFrom_of_absent {index : Nat} {text : List Char} {arguments : List String}
    (absent : ∀ slot < arguments.length, ¬ placeholder (index + slot) <:+: text) :
    fillFrom index text arguments = text := by
  induction arguments generalizing index with
  | nil => rfl
  | cons argument rest inductionHypothesis =>
    have here : ¬ placeholder index <:+: text := absent 0 (Nat.succ_pos _)
    rw [fillFrom, replaceAll_of_absent here]
    apply inductionHypothesis
    intro slot inside
    have there := absent (slot + 1) (Nat.succ_lt_succ inside)
    rwa [Nat.add_right_comm, Nat.add_assoc]

theorem settleFrom_eq {index : Nat} {arguments : List String}
    (settled : ∀ slot argument, arguments[slot]? = some argument → ∀ later, slot < later →
      later < arguments.length → ¬ placeholder (index + later) <:+: argument.toList) :
    settleFrom index arguments = arguments := by
  induction arguments generalizing index with
  | nil => rfl
  | cons argument rest inductionHypothesis =>
    have here : fillFrom (index + 1) argument.toList rest = argument.toList := by
      apply fillFrom_of_absent
      intro slot inside
      have apart := settled 0 argument rfl (slot + 1) (Nat.succ_pos _) (Nat.succ_lt_succ inside)
      rwa [Nat.add_right_comm, Nat.add_assoc]
    have later : settleFrom (index + 1) rest = rest := by
      apply inductionHypothesis
      intro slot other listed later after inside
      have apart := settled (slot + 1) other listed (later + 1) (Nat.succ_lt_succ after)
        (Nat.succ_lt_succ inside)
      rwa [Nat.add_right_comm, Nat.add_assoc]
    rw [settleFrom, here, later, String.ofList_toList]

theorem Settled.settle_eq {arguments : List String} (settled : Settled arguments) :
    settle arguments = arguments := by
  apply settleFrom_eq
  intro slot argument listed later after inside
  rw [Nat.zero_add]
  exact settled slot argument listed later after inside

end Relocation.Text
