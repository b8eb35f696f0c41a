import Mathlib.Data.List.Basic
import Mathlib.Tactic.IntervalCases
import Relocation.Json.Decode
import Relocation.Json.Value
set_option autoImplicit false

/-!
Written values read back: the compact form of a value is taken apart into the lexemes of the value,
and these are put together again to one reading of it.

A number ends only where something else follows it, so the scanner is described after a value by
what it does next: with a character that may follow, and at the end of the text.
-/

namespace Relocation.Json

/-- How a character stands in a string: control characters without an escape of their own are
written by their numbers. -/
def CodeUnit.ofChar (c : Char) : CodeUnit :=
  if c.toNat < 0x20 ∧ c ∉ ['\n', '\r', '\t', '\x08', '\x0c'] then .code c.toNat else .char c

def unitsOf (text : String) : List CodeUnit := text.toList.map .ofChar

def Numeral.ofDigits (n : Numeral) (digits : List Char) : Numeral :=
  digits.foldl (fun n c => n.wholeDigit (c.toNat - '0'.toNat)) n

def Numeral.ofNat (n : Nat) : Numeral := ofDigits {} (toString n).toList

namespace Value

mutual

def lexemes : Value → List Lexeme
  | null => [.word .null]
  | bool true => [.word .true]
  | bool false => [.word .false]
  | number n => [.number (.ofNat n)]
  | string text => [.string (unitsOf text) none]
  | array items => .openArray :: lexemesItems items ++ [.closeArray]
  | object members => .openObject :: lexemesMembers members ++ [.closeObject]

def lexemesItems : List Value → List Lexeme
  | [] => []
  | [item] => item.lexemes
  | item :: rest => item.lexemes ++ .comma :: lexemesItems rest

def lexemesMembers : List (String × Value) → List Lexeme
  | [] => []
  | [(key, value)] => .string (unitsOf key) none :: .colon :: value.lexemes
  | (key, value) :: rest =>
    .string (unitsOf key) none :: .colon :: value.lexemes ++ .comma :: lexemesMembers rest

end

mutual

def reading : Value → Reading
  | null => .word .null
  | bool true => .word .true
  | bool false => .word .false
  | number n => .number (.ofNat n)
  | string text => .string (unitsOf text) none
  | array items => .array (readings items) none
  | object members => .object (memberReadings members) none

def readings : List Value → List Reading
  | [] => []
  | item :: rest => item.reading :: readings rest

def memberReadings : List (String × Value) → List (Reading × Reading)
  | [] => []
  | (key, value) :: rest =>
    (.string (unitsOf key) none, value.reading) :: memberReadings rest

end

theorem readings_eq_map (items : List Value) : readings items = items.map reading := by
  induction items with
  | nil => rfl
  | cons item rest inductionHypothesis => rw [readings, inductionHypothesis, List.map_cons]

end Value

namespace Scanner

def inString (lexemes : List Lexeme) (units : List CodeUnit) : Scanner := ⟨lexemes, .string units⟩

theorem digitChar_scanned :
    ∀ n < 16, hexDigit? n.digitChar = some n ∧ n.digitChar.utf8Size = 1 := by
  decide

theorem scan_escapeControl {c : Char} (control : c.toNat < 0x20) (lexemes : List Lexeme)
    (units : List CodeUnit) :
    (escapeControl c).foldl step (inString lexemes units) =
      inString lexemes (.code c.toNat :: units) := by
  obtain ⟨high, highSize⟩ := digitChar_scanned (c.toNat / 16) (by omega)
  obtain ⟨low, lowSize⟩ := digitChar_scanned (c.toNat % 16) (by omega)
  have zero : hexDigit? '0' = some 0 ∧ '0'.utf8Size = 1 := by decide
  have value : 16 * (c.toNat / 16) + c.toNat % 16 = c.toNat := Nat.div_add_mod ..
  simp [escapeControl, inString, step, stepCode, high, highSize, low, lowSize, zero, value]

theorem scan_escape (c : Char) (lexemes : List Lexeme) (units : List CodeUnit) :
    (escape c).foldl step (inString lexemes units) = inString lexemes (.ofChar c :: units) := by
  unfold escape
  split
  case h_8 notQuote notBackslash _ _ _ _ _ =>
    have unescaped : c ≠ '"' ∧ c ≠ '\\' := ⟨notQuote, notBackslash⟩
    split
    next control =>
      rw [scan_escapeControl control]
      simp_all [CodeUnit.ofChar]
    next plain => simp [CodeUnit.ofChar, inString, step, unescaped, plain]
  all_goals simp [inString, step, unescape?, CodeUnit.ofChar]

theorem scan_escapes (chars : List Char) (lexemes : List Lexeme) (units : List CodeUnit) :
    (chars.flatMap escape).foldl step (inString lexemes units) =
      inString lexemes ((chars.map CodeUnit.ofChar).reverse ++ units) := by
  induction chars generalizing units with
  | nil => rfl
  | cons c rest inductionHypothesis =>
    rw [List.flatMap_cons, List.foldl_append, scan_escape, inductionHypothesis]
    simp

theorem scan_quote (text : String) (lexemes : List Lexeme) :
    (quote text).foldl step ⟨lexemes, .between⟩ =
      ⟨.string (unitsOf text) none :: lexemes, .between⟩ := by
  have opened : step ⟨lexemes, .between⟩ '"' = inString lexemes [] := rfl
  rw [quote, List.cons_append, List.foldl_cons, opened, List.foldl_append, scan_escapes]
  simp [inString, step, emit, unitsOf]

/-- The scanner has read whole lexemes, newest first, although a number may still go on. -/
structure Ends (s : Scanner) (lexemes : List Lexeme) : Prop where
  finish : s.finish = lexemes.reverse
  next : ∀ c ∈ [',', ']', '}'], s.step c = start ⟨lexemes, .between⟩ c

theorem ends_between (lexemes : List Lexeme) : Ends ⟨lexemes, .between⟩ lexemes where
  finish := by simp [Scanner.finish]
  next _ _ := rfl

theorem ends_number {phase : NumberPhase} (complete : phase = .zero ∨ phase = .whole)
    (value : Numeral) (lexemes : List Lexeme) :
    Ends ⟨lexemes, .number phase value⟩ (.number value :: lexemes) where
  finish := by rcases complete with rfl | rfl <;> simp [Scanner.finish, NumberPhase.isComplete]
  next c follows := by
    simp only [List.mem_cons, List.not_mem_nil, or_false] at follows
    rcases complete with rfl | rfl <;> rcases follows with rfl | rfl | rfl <;> rfl

theorem start_digit : ∀ d < 10, 0 < d → ∀ s : Scanner,
    s.start d.digitChar = ⟨s.lexemes, .number .whole (Numeral.wholeDigit {} d)⟩ := by
  intro d small positive s
  interval_cases d <;> rfl

theorem digit?_digitChar : ∀ d < 10, digit? d.digitChar = some d := by decide

theorem ofDigits_append (n : Numeral) (digits more : List Char) :
    n.ofDigits (digits ++ more) = (n.ofDigits digits).ofDigits more :=
  List.foldl_append

theorem ofDigits_singleton :
    ∀ d < 10, ∀ n : Numeral, n.ofDigits [d.digitChar] = n.wholeDigit d := by
  intro d small n
  interval_cases d <;> rfl

theorem scan_digits {n : Nat} (positive : 0 < n) (lexemes : List Lexeme) :
    (Nat.toDigits 10 n).foldl step ⟨lexemes, .between⟩ =
      ⟨lexemes, .number .whole (Numeral.ofDigits {} (Nat.toDigits 10 n))⟩ := by
  induction n using Nat.strongRecOn with
  | ind n inductionHypothesis =>
    by_cases small : n < 10
    · rw [Nat.toDigits_of_lt_base small, ofDigits_singleton n small]
      exact start_digit n small positive _
    · have large : 10 ≤ n := Nat.not_lt.mp small
      have last : n % 10 < 10 := Nat.mod_lt _ (by decide)
      rw [Nat.toDigits_of_base_le (by decide) large, List.foldl_append,
        inductionHypothesis (n / 10) (by omega) (by omega), ofDigits_append,
        ofDigits_singleton _ last]
      simp [step, NumberPhase.next, digit?_digitChar _ last]

theorem ends_digits (n : Nat) (lexemes : List Lexeme) :
    Ends ((toString n).toList.foldl step ⟨lexemes, .between⟩) (.number (.ofNat n) :: lexemes) := by
  rw [Numeral.ofNat, Nat.toString_eq_repr, Nat.toList_repr]
  rcases Nat.eq_zero_or_pos n with rfl | positive
  · exact ends_number (.inl rfl) {} lexemes
  · rw [scan_digits positive]
    exact ends_number (.inr rfl) _ lexemes

namespace Ends

variable {s : Scanner} {lexemes : List Lexeme} (ends : Ends s lexemes)
include ends

theorem foldl_comma (rest : List Char) :
    (',' :: rest).foldl Scanner.step s = rest.foldl Scanner.step ⟨.comma :: lexemes, .between⟩ := by
  rw [List.foldl_cons, ends.next ',' (by simp)]
  rfl

theorem closeArray : s.step ']' = ⟨.closeArray :: lexemes, .between⟩ := by
  rw [ends.next ']' (by simp)]
  rfl

theorem closeObject : s.step '}' = ⟨.closeObject :: lexemes, .between⟩ := by
  rw [ends.next '}' (by simp)]
  rfl

end Ends

theorem scan_key (key : String) (rest : List Char) (lexemes : List Lexeme) :
    (quote key ++ ':' :: rest).foldl step ⟨lexemes, .between⟩ =
      rest.foldl step ⟨.colon :: .string (unitsOf key) none :: lexemes, .between⟩ := by
  rw [List.foldl_append, scan_quote]
  rfl

mutual

theorem ends_compact (value : Value) (lexemes : List Lexeme) :
    Ends (value.compact.foldl step ⟨lexemes, .between⟩) (value.lexemes.reverse ++ lexemes) := by
  cases value with
  | null =>
    have written : Value.null.compact = ['n', 'u', 'l', 'l'] := by
      simp [Value.compact, Value.scalar]
    rw [written, Value.lexemes]
    exact ends_between (.word .null :: lexemes)
  | bool value =>
    cases value
    · have written : (Value.bool false).compact = ['f', 'a', 'l', 's', 'e'] := by
        simp [Value.compact, Value.scalar]
      rw [written, Value.lexemes]
      exact ends_between (.word .false :: lexemes)
    · have written : (Value.bool true).compact = ['t', 'r', 'u', 'e'] := by
        simp [Value.compact, Value.scalar]
      rw [written, Value.lexemes]
      exact ends_between (.word .true :: lexemes)
  | number n =>
    have written : (Value.number n).compact = (toString n).toList := by
      simp [Value.compact, Value.scalar]
    rw [written, Value.lexemes]
    exact ends_digits n lexemes
  | string text =>
    have written : (Value.string text).compact = quote text := by
      simp [Value.compact, Value.scalar]
    rw [written, scan_quote, Value.lexemes]
    exact ends_between (.string (unitsOf text) none :: lexemes)
  | array items =>
    have opened : step ⟨lexemes, .between⟩ '[' = ⟨.openArray :: lexemes, .between⟩ := rfl
    have inner := ends_compactItems items (.openArray :: lexemes)
    rw [Value.compact, List.cons_append, List.foldl_cons, opened, List.foldl_append,
      List.foldl_cons, List.foldl_nil, inner.closeArray, Value.lexemes]
    simp only [List.reverse_append, List.reverse_cons, List.append_assoc]
    exact ends_between _
  | object members =>
    have opened : step ⟨lexemes, .between⟩ '{' = ⟨.openObject :: lexemes, .between⟩ := rfl
    have inner := ends_compactMembers members (.openObject :: lexemes)
    rw [Value.compact, List.cons_append, List.foldl_cons, opened, List.foldl_append,
      List.foldl_cons, List.foldl_nil, inner.closeObject, Value.lexemes]
    simp only [List.reverse_append, List.reverse_cons, List.append_assoc]
    exact ends_between _

theorem ends_compactItems (items : List Value) (lexemes : List Lexeme) :
    Ends ((Value.compactItems items).foldl step ⟨lexemes, .between⟩)
      ((Value.lexemesItems items).reverse ++ lexemes) := by
  match items with
  | [] =>
    rw [Value.compactItems, Value.lexemesItems]
    exact ends_between lexemes
  | [item] =>
    rw [Value.compactItems, Value.lexemesItems]
    exact ends_compact item lexemes
  | item :: next :: rest =>
    have first := ends_compact item lexemes
    have others := ends_compactItems (next :: rest) (.comma :: (item.lexemes.reverse ++ lexemes))
    rw [Value.compactItems, List.foldl_append, first.foldl_comma, Value.lexemesItems]
    · simpa using others
    all_goals simp

theorem ends_compactMembers (members : List (String × Value)) (lexemes : List Lexeme) :
    Ends ((Value.compactMembers members).foldl step ⟨lexemes, .between⟩)
      ((Value.lexemesMembers members).reverse ++ lexemes) := by
  match members with
  | [] =>
    rw [Value.compactMembers, Value.lexemesMembers]
    exact ends_between lexemes
  | [(key, value)] =>
    have only := ends_compact value (.colon :: .string (unitsOf key) none :: lexemes)
    rw [Value.compactMembers, scan_key, Value.lexemesMembers]
    simpa using only
  | (key, value) :: next :: rest =>
    have first := ends_compact value (.colon :: .string (unitsOf key) none :: lexemes)
    have others := ends_compactMembers (next :: rest) (.comma ::
      (value.lexemes.reverse ++ .colon :: .string (unitsOf key) none :: lexemes))
    rw [Value.compactMembers, List.append_assoc, List.cons_append, scan_key, List.foldl_append,
      first.foldl_comma, Value.lexemesMembers]
    · simpa using others
    all_goals simp

end

end Scanner

/-- The lexemes of a compact text are those of the value. -/
theorem lexemes_compact (value : Value) : lexemes value.compact = value.lexemes := by
  simpa [lexemes] using (Scanner.ends_compact value []).finish

namespace Builder

variable (outer : List OpenContainer) (mayClose : Bool)

theorem step_openArray :
    step (within outer (.entry mayClose)) .openArray = within (.array [] :: outer) (.entry true) :=
  rfl

theorem step_openObject :
    step (within outer (.entry mayClose)) .openObject =
      within (.object [] none :: outer) (.entry true) :=
  rfl

theorem build_key (key : String) (before : List (Reading × Reading)) (rest : List Lexeme) :
    (Lexeme.string (unitsOf key) none :: .colon :: rest).foldl step
        (within (.object before none :: outer) (.entry mayClose)) =
      rest.foldl step
        (within (.object before (some (.string (unitsOf key) none)) :: outer) (.entry false)) :=
  rfl

mutual

/-- The lexemes of a value put its reading in place. -/
theorem build_value (value : Value) (outer : List OpenContainer) (mayClose : Bool) :
    value.lexemes.foldl step (within outer (.entry mayClose)) = place value.reading outer := by
  cases value with
  | null =>
    rw [Value.lexemes, Value.reading]
    rfl
  | bool value =>
    cases value
    · rw [Value.lexemes, Value.reading]
      rfl
    · rw [Value.lexemes, Value.reading]
      rfl
  | number n =>
    rw [Value.lexemes, Value.reading]
    rfl
  | string text =>
    rw [Value.lexemes, Value.reading]
    rfl
  | array items =>
    rw [Value.lexemes, Value.reading, List.cons_append, List.foldl_cons, List.foldl_append,
      step_openArray]
    by_cases empty : items = []
    · rw [empty, Value.lexemesItems, Value.readings]
      rfl
    · rw [build_items items empty]
      simp [step, stepSeparator, close]
  | object members =>
    rw [Value.lexemes, Value.reading, List.cons_append, List.foldl_cons, List.foldl_append,
      step_openObject]
    by_cases empty : members = []
    · rw [empty, Value.lexemesMembers, Value.memberReadings]
      rfl
    · rw [build_members members empty]
      simp [step, stepSeparator, close]

theorem build_items (items : List Value) (nonempty : items ≠ []) (before : List Reading)
    (outer : List OpenContainer) (mayClose : Bool) :
    (Value.lexemesItems items).foldl step (within (.array before :: outer) (.entry mayClose)) =
      within (.array ((Value.readings items).reverse ++ before) :: outer) .separator := by
  match items with
  | [] => exact absurd rfl nonempty
  | [item] =>
    rw [Value.lexemesItems, build_value item, Value.readings, Value.readings]
    rfl
  | item :: next :: rest =>
    have comma : step (place item.reading (.array before :: outer)) .comma =
        within (.array (item.reading :: before) :: outer) (.entry false) := rfl
    rw [Value.lexemesItems, List.foldl_append, build_value item, List.foldl_cons, comma,
      build_items (next :: rest) (by simp)]
    · simp [Value.readings]
    · simp

theorem build_members (members : List (String × Value)) (nonempty : members ≠ [])
    (before : List (Reading × Reading)) (outer : List OpenContainer) (mayClose : Bool) :
    (Value.lexemesMembers members).foldl step
        (within (.object before none :: outer) (.entry mayClose)) =
      within (.object ((Value.memberReadings members).reverse ++ before) none :: outer)
        .separator := by
  match members with
  | [] => exact absurd rfl nonempty
  | [(key, value)] =>
    rw [Value.lexemesMembers, build_key, build_value value, Value.memberReadings,
      Value.memberReadings]
    rfl
  | (key, value) :: next :: rest =>
    have comma : step (place value.reading
          (.object before (some (.string (unitsOf key) none)) :: outer)) .comma =
        within (.object ((.string (unitsOf key) none, value.reading) :: before) none :: outer)
          (.entry false) := rfl
    rw [Value.lexemesMembers, List.cons_append, List.cons_append, build_key, List.foldl_append,
      build_value value, List.foldl_cons, comma, build_members (next :: rest) (by simp)]
    · simp [Value.memberReadings]
    · simp

end

end Builder

/-- What a value is written as reads back as what the value says, and nothing is left over. -/
theorem read_toCompact (value : Value) : read value.toCompact = ⟨value.reading, false⟩ := by
  have built := Builder.build_value value [] false
  rw [read, Value.toCompact, String.toList_ofList, lexemes_compact, Document.ofLexemes, built]
  rfl

end Relocation.Json
