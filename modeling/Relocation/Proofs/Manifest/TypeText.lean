import Mathlib.Data.List.TakeWhile
import Relocation.Manifest.TypeText
import Relocation.Proofs.Steps
set_option autoImplicit false

/-!
Reading types that have been printed.

A name ends where a character follows that no name has, so a printed type is read token by token as it
was written, and reading gives the type back. The reader takes no more steps than the text is long,
twice over. Whatever it reads has proper names, so each text that is read has a printed form that reads
the same.
-/

namespace Relocation.TypeText

open Text

/-- A name is not empty and has only characters that a name can have. -/
def IsName (name : String) : Prop := name.toList ≠ [] ∧ ∀ c ∈ name.toList, isNameChar c = true

mutual

def Named : TypeText → Prop
  | .node name args _ => IsName name ∧ AllNamed args

def AllNamed : List TypeTextArg → Prop
  | [] => True
  | .star :: rest => AllNamed rest
  | .type _ type :: rest => Named type ∧ AllNamed rest

end

theorem not_isNameChar_of_isBlank {c : Char} (blank : isBlank c = true) : isNameChar c = false := by
  have noLetter : ∀ point ∈ blankPoints,
      alphanumericRanges.any (fun range => range.1 ≤ point && point ≤ range.2) = false := by
    decide +kernel
  have noMark : ['_', '.', '$', '#'].all (fun mark => !isBlank mark) = true := by decide
  have listed : c.toNat ∈ blankPoints := List.contains_iff_mem.mp blank
  have other {mark : Char} (isMark : mark ∈ ['_', '.', '$', '#']) : (c == mark) = false := by
    rw [beq_eq_false_iff_ne]
    rintro rfl
    have visible := List.all_eq_true.mp noMark c isMark
    rw [blank] at visible
    cases visible
  unfold isNameChar isAlphanumeric
  rw [noLetter _ listed, other (by simp), other (by simp), other (by simp), other (by simp)]
  rfl

theorem isNameChar_of_word {c : Char} (letter : c ∈ ['o', 'u', 't', 'i', 'n']) :
    isNameChar c = true := by
  have letters : ['o', 'u', 't', 'i', 'n'].all isNameChar = true := by decide +kernel
  exact List.all_eq_true.mp letters c letter

theorem not_isNameChar_of_mark {c : Char} (mark : c ∈ ['<', '>', ',', '?', '*']) :
    isNameChar c = false := by
  have marks : ['<', '>', ',', '?', '*'].any isNameChar = false := by decide +kernel
  exact Bool.eq_false_iff.mpr (List.any_eq_false.mp marks c mark)

theorem ne_mark_of_isNameChar {c mark : Char} (isChar : isNameChar c = true)
    (isMark : mark ∈ ['<', '>', ',', '?', '*']) : c ≠ mark := by
  rintro rfl
  rw [not_isNameChar_of_mark isMark] at isChar
  cases isChar

theorem skipBlank_of_head {text : List Char} (visible : ∀ c ∈ text.head?, isBlank c = false) :
    skipBlank text = text := by
  cases text with
  | nil => rfl
  | cons c rest => simp [skipBlank, visible c rfl]

/-- What can stand behind a type: nothing, or what ends an argument. -/
def Closes (rest : List Char) : Prop := ∀ c ∈ rest.head?, c = ',' ∨ c = '>'

def EndsName (rest : List Char) : Prop := ∀ c ∈ rest.head?, c = ',' ∨ c = '>' ∨ c = '<' ∨ c = '?'

theorem EndsName.not_isNameChar {rest : List Char} (ends : EndsName rest) :
    ∀ c ∈ rest.head?, isNameChar c = false := by
  intro c first
  apply not_isNameChar_of_mark
  rcases ends c first with rfl | rfl | rfl | rfl <;> simp

theorem EndsName.skipBlank {rest : List Char} (ends : EndsName rest) : skipBlank rest = rest := by
  apply skipBlank_of_head
  intro c first
  rcases ends c first with rfl | rfl | rfl | rfl <;> rfl

theorem Closes.endsName {rest : List Char} (closes : Closes rest) : EndsName rest := by
  intro c first
  rcases closes c first with rfl | rfl <;> simp

section Name

variable {name rest : List Char} (chars : ∀ c ∈ name, isNameChar c = true)
  (ends : ∀ c ∈ rest.head?, isNameChar c = false)
include chars

theorem skipBlank_name (some : name ≠ []) : skipBlank (name ++ rest) = name ++ rest := by
  apply skipBlank_of_head
  cases name with
  | nil => exact absurd rfl some
  | cons first others =>
    intro c isFirst
    obtain rfl : first = c := by simpa using isFirst
    cases blank : isBlank first with
    | false => rfl
    | true =>
      have isChar := chars first (List.mem_cons_self ..)
      rw [not_isNameChar_of_isBlank blank] at isChar
      cases isChar

include ends

theorem takeWhile_name : (name ++ rest).takeWhile isNameChar = name := by
  rw [List.takeWhile_append_of_pos chars]
  cases rest with
  | nil => simp
  | cons c others => simp [ends c rfl]

theorem dropWhile_name : (name ++ rest).dropWhile isNameChar = rest := by
  rw [List.dropWhile_append_of_pos chars]
  cases rest with
  | nil => rfl
  | cons c others => simp [ends c rfl]

theorem eq_word_of_append {word after : List Char} (letters : word ⊆ ['o', 'u', 't', 'i', 'n'])
    (same : name ++ rest = word ++ ' ' :: after) : name = word ∧ rest = ' ' :: after := by
  have isWord : ∀ c ∈ word, isNameChar c = true := fun c listed => isNameChar_of_word (letters listed)
  have space : ∀ c ∈ (' ' :: after).head?, isNameChar c = false :=
    fun c first => Option.some.inj first ▸ not_isNameChar_of_isBlank (by decide)
  constructor
  · rw [← takeWhile_name chars ends, same, takeWhile_name isWord space]
  · rw [← dropWhile_name chars ends, same, dropWhile_name isWord space]

/-- A name is no variance unless it is the word of one and a space follows it. -/
theorem takeVariance_name (noVariance : rest.head? = some ' ' →
    name ≠ ['o', 'u', 't'] ∧ name ≠ ['i', 'n']) :
    takeVariance (name ++ rest) = (.invariant, name ++ rest) := by
  unfold takeVariance
  split
  next after same =>
    have out : ['o', 'u', 't'] ⊆ ['o', 'u', 't', 'i', 'n'] := by simp
    obtain ⟨isWord, rfl⟩ := eq_word_of_append chars ends out same
    exact absurd isWord (noVariance rfl).1
  next after same =>
    have inward : ['i', 'n'] ⊆ ['o', 'u', 't', 'i', 'n'] := by simp
    obtain ⟨isWord, rfl⟩ := eq_word_of_append chars ends inward same
    exact absurd isWord (noVariance rfl).2
  · rfl

end Name

def printRest (args : List TypeTextArg) (nullable : Bool) : List Char :=
  (if args = [] then [] else '<' :: printArgs args ++ ['>']) ++ if nullable then ['?'] else []

theorem print_node (name : String) (args : List TypeTextArg) (nullable : Bool) :
    print (.node name args nullable) = name.toList ++ printRest args nullable := by
  cases args with
  | nil => simp [print, printRest]
  | cons arg rest => simp [print, printRest]

def printOthers (others : List TypeTextArg) : List Char :=
  if others = [] then [] else ',' :: ' ' :: printArgs others

theorem printOthers_of_ne_nil {others : List TypeTextArg} (some : others ≠ []) :
    printOthers others = ',' :: ' ' :: printArgs others :=
  if_neg some

theorem length_printOthers {others : List TypeTextArg} (some : others ≠ []) :
    (printOthers others).length = (printArgs others).length + 2 := by
  simp [printOthers_of_ne_nil some]

theorem printArgs_cons (arg : TypeTextArg) (rest : List TypeTextArg) :
    printArgs (arg :: rest) = printArg arg ++ printOthers rest := by
  cases rest with
  | nil => simp [printArgs, printOthers]
  | cons next others => simp [printArgs, printOthers]

theorem printArgs_eq_intercalate (args : List TypeTextArg) :
    printArgs args = [',', ' '].intercalate (args.map printArg) := by
  induction args with
  | nil => rfl
  | cons arg rest inductionHypothesis =>
    rw [printArgs_cons]
    cases rest with
    | nil => simp [printOthers]
    | cons next others =>
      rw [printOthers_of_ne_nil (List.cons_ne_nil _ _), inductionHypothesis]
      simp [List.intercalate_cons_cons]

theorem endsName_printRest (args : List TypeTextArg) (nullable : Bool) {rest : List Char}
    (closes : Closes rest) : EndsName (printRest args nullable ++ rest) := by
  cases args with
  | cons arg others => simp [EndsName, printRest]
  | nil =>
    cases nullable with
    | true => simp [EndsName, printRest]
    | false => simpa [printRest] using closes.endsName

section Print

variable {type : TypeText} (named : type.Named) {rest : List Char} (closes : Closes rest)
include named

theorem Named.skipBlank_print : skipBlank (print type ++ rest) = print type ++ rest := by
  rcases type with ⟨name, args, nullable⟩
  unfold Named at named
  rw [print_node, List.append_assoc]
  exact skipBlank_name named.1.2 named.1.1

/-- A printed type is not taken for a star. -/
theorem Named.head?_print_ne_star : (print type ++ rest).head? ≠ some '*' := by
  rcases type with ⟨name, args, nullable⟩
  unfold Named at named
  rw [print_node]
  obtain ⟨first, others, chars⟩ := List.exists_cons_of_ne_nil named.1.1
  have isChar := named.1.2 first (by simp [chars])
  simp only [chars, List.cons_append, List.head?_cons, ne_eq, Option.some.injEq]
  exact ne_mark_of_isNameChar isChar (by simp)

include closes

theorem Named.takeVariance_print (variance : Variance) :
    takeVariance (variancePrint variance ++ (print type ++ rest)) =
      (variance, print type ++ rest) := by
  cases variance with
  | out => rfl
  | inward => rfl
  | invariant =>
    rcases type with ⟨name, args, nullable⟩
    unfold Named at named
    have ends := endsName_printRest args nullable closes
    rw [print_node, List.append_assoc]
    apply takeVariance_name named.1.2 ends.not_isNameChar
    intro space
    rcases ends ' ' space with same | same | same | same <;> cases same

end Print

theorem eat?_eq (token : Char) (text : List Char) :
    eat? token text = match skipBlank text with
      | c :: rest => if c = token then some rest else none
      | [] => none :=
  rfl

theorem eat?_of_head {token : Char} {text rest : List Char} (start : skipBlank text = token :: rest) :
    eat? token text = some rest := by
  simp [eat?_eq, start]

theorem eat?_of_ne {token : Char} {text : List Char}
    (other : (skipBlank text).head? ≠ some token) : eat? token text = none := by
  rw [eat?_eq]
  split
  next c rest start =>
    rw [start] at other
    rw [if_neg (fun same => other (congrArg some same))]
  · rfl

theorem takeNullable_mark (nullable : Bool) {rest : List Char} (closes : Closes rest) :
    takeNullable ((if nullable then ['?'] else []) ++ rest) = (nullable, rest) := by
  cases nullable with
  | true => rfl
  | false =>
    have stays : skipBlank rest = rest := closes.endsName.skipBlank
    have noMark : eat? '?' rest = none := by
      apply eat?_of_ne
      rw [stays]
      intro mark
      rcases closes '?' mark with same | same <;> cases same
    simp [takeNullable, noMark, stays]

def readBrackets (steps : Nat) (text : List Char) : Except Fault (List TypeTextArg × List Char) :=
  match eat? '<' text with
  | some rest => readArgs steps rest
  | none => pure ([], text)

theorem readType_succ (steps : Nat) (text : List Char) :
    readType (steps + 1) text =
      if ((skipBlank text).takeWhile isNameChar).isEmpty then .error ⟨.noName, skipBlank text⟩
      else
        readBrackets steps ((skipBlank text).dropWhile isNameChar) >>= fun read =>
          pure (.node (String.ofList ((skipBlank text).takeWhile isNameChar)) read.1
            (takeNullable read.2).1, (takeNullable read.2).2) := by
  unfold readType readBrackets
  dsimp only
  split
  · rfl
  · cases eat? '<' ((skipBlank text).dropWhile isNameChar) with
    | none => rfl
    | some rest => cases readArgs steps rest <;> rfl

def readArg (steps : Nat) (text : List Char) : Except Fault (TypeTextArg × List Char) :=
  match eat? '*' text with
  | some rest => pure (.star, rest)
  | none =>
    readType steps (takeVariance (skipBlank text)).2 >>= fun read =>
      pure (.type (takeVariance (skipBlank text)).1 read.1, read.2)

def readOthers (steps : Nat) (arg : TypeTextArg) (text : List Char) :
    Except Fault (List TypeTextArg × List Char) :=
  match eat? ',' text with
  | some rest => readArgs steps rest >>= fun read => pure (arg :: read.1, read.2)
  | none =>
    match eat? '>' text with
    | some rest => pure ([arg], rest)
    | none => .error ⟨.noSeparator, skipBlank text⟩

theorem readArgs_succ (steps : Nat) (text : List Char) :
    readArgs (steps + 1) text =
      readArg steps text >>= fun read => readOthers steps read.1 read.2 := by
  unfold readArgs readArg
  cases eat? '*' text with
  | some rest => rfl
  | none =>
    rcases takeVariance (skipBlank text) with ⟨variance, rest⟩
    dsimp only
    cases readType steps rest <;> rfl

theorem readBrackets_none {steps : Nat} {nullable : Bool} {rest : List Char}
    (closes : Closes rest) :
    readBrackets steps (printRest [] nullable ++ rest) = .ok ([], printRest [] nullable ++ rest) := by
  have none : eat? '<' (printRest [] nullable ++ rest) = none := by
    apply eat?_of_ne
    rw [(endsName_printRest [] nullable closes).skipBlank]
    cases nullable with
    | true => simp [printRest]
    | false =>
      intro bracket
      rcases closes '<' (by simpa [printRest] using bracket) with same | same <;> cases same
  rw [readBrackets, none]
  rfl

theorem skipBlank_printArgs : ∀ {args : List TypeTextArg}, AllNamed args → args ≠ [] →
    ∀ rest, skipBlank (printArgs args ++ rest) = printArgs args ++ rest
  | .star :: others, _, _, rest => by
    rw [printArgs_cons]
    rfl
  | .type variance type :: others, named, _, rest => by
    unfold AllNamed at named
    rw [printArgs_cons, printArg, List.append_assoc, List.append_assoc]
    cases variance with
    | out => rfl
    | inward => rfl
    | invariant => exact named.1.skipBlank_print

theorem closes_printOthers (others : List TypeTextArg) (rest : List Char) :
    Closes (printOthers others ++ '>' :: rest) := by
  cases others <;> simp [Closes, printOthers]

theorem readArg_type {variance : Variance} {type : TypeText} {rest text : List Char} {steps : Nat}
    (named : type.Named) (closes : Closes rest)
    (start : skipBlank text = printArg (.type variance type) ++ rest)
    (read : readType steps (print type ++ rest) = .ok (type, rest)) :
    readArg steps text = .ok (.type variance type, rest) := by
  rw [printArg, List.append_assoc] at start
  have noStar : eat? '*' text = none := by
    apply eat?_of_ne
    rw [start]
    cases variance with
    | out => exact nofun
    | inward => exact nofun
    | invariant => exact named.head?_print_ne_star
  rw [readArg, noStar, start, named.takeVariance_print closes]
  simp only [read]
  rfl

theorem readOthers_print {arg : TypeTextArg} {others : List TypeTextArg} {rest : List Char}
    {steps : Nat} (named : AllNamed others)
    (read : ∀ {text}, others ≠ [] → skipBlank text = printArgs others ++ '>' :: rest →
      readArgs steps text = .ok (others, rest)) :
    readOthers steps arg (printOthers others ++ '>' :: rest) = .ok (arg :: others, rest) := by
  cases others with
  | nil => rfl
  | cons next more =>
    have comma : eat? ',' (printOthers (next :: more) ++ '>' :: rest) =
        some (' ' :: (printArgs (next :: more) ++ '>' :: rest)) := rfl
    have start : skipBlank (' ' :: (printArgs (next :: more) ++ '>' :: rest)) =
        printArgs (next :: more) ++ '>' :: rest :=
      skipBlank_printArgs named (List.cons_ne_nil _ _) _
    rw [readOthers, comma]
    simp only [read (List.cons_ne_nil _ _) start]
    rfl

mutual

theorem readType_print : ∀ {type : TypeText} {rest text : List Char} {steps : Nat}, type.Named →
    Closes rest → 2 * (print type).length ≤ steps → skipBlank text = print type ++ rest →
      readType steps text = .ok (type, rest)
  | .node name args nullable, rest, text, steps, named, closes, enough, start => by
    unfold Named at named
    obtain ⟨isName, allNamed⟩ := named
    have ends := (endsName_printRest args nullable closes).not_isNameChar
    have some := List.length_pos_iff.mpr isName.1
    rw [print_node, List.length_append] at enough
    rw [print_node, List.append_assoc] at start
    obtain ⟨steps, rfl⟩ : ∃ fewer, steps = fewer + 1 := ⟨steps - 1, by omega⟩
    have brackets : readBrackets steps (printRest args nullable ++ rest) =
        .ok (args, (if nullable then ['?'] else []) ++ rest) := by
      cases args with
      | nil => exact readBrackets_none closes
      | cons arg others =>
        have opened : eat? '<' (printRest (arg :: others) nullable ++ rest) =
            Option.some (printArgs (arg :: others) ++
              '>' :: ((if nullable then ['?'] else []) ++ rest)) := by
          apply eat?_of_head
          simp [printRest, skipBlank, isBlank, blankPoints]
        have room : 2 * (printArgs (arg :: others)).length + 1 ≤ steps := by
          simp [printRest] at enough
          omega
        rw [readBrackets, opened]
        exact readArgs_print allNamed (List.cons_ne_nil _ _) room
          (skipBlank_printArgs allNamed (List.cons_ne_nil _ _) _)
    rw [readType_succ, start, takeWhile_name isName.2 ends, dropWhile_name isName.2 ends, brackets,
      if_neg (by simpa using isName.1)]
    show Except.ok _ = _
    rw [takeNullable_mark nullable closes, String.ofList_toList]

theorem readArgs_print : ∀ {args : List TypeTextArg} {rest text : List Char} {steps : Nat},
    AllNamed args → args ≠ [] → 2 * (printArgs args).length + 1 ≤ steps →
      skipBlank text = printArgs args ++ '>' :: rest → readArgs steps text = .ok (args, rest)
  | .star :: others, rest, text, steps, named, _, enough, start => by
    unfold AllNamed at named
    obtain ⟨steps, rfl⟩ : ∃ fewer, steps = fewer + 1 := ⟨steps - 1, by omega⟩
    rw [printArgs_cons, List.append_assoc] at start
    rw [printArgs_cons, List.length_append] at enough
    have first : readArg steps text = .ok (.star, printOthers others ++ '>' :: rest) := by
      rw [readArg, eat?_of_head start]
      rfl
    rw [readArgs_succ, first]
    apply readOthers_print named
    intro behind some all
    apply readArgs_print named some ?_ all
    have length := length_printOthers some
    omega
  | .type variance type :: others, rest, text, steps, named, _, enough, start => by
    unfold AllNamed at named
    obtain ⟨steps, rfl⟩ : ∃ fewer, steps = fewer + 1 := ⟨steps - 1, by omega⟩
    rw [printArgs_cons, List.append_assoc] at start
    rw [printArgs_cons, List.length_append, printArg, List.length_append] at enough
    have closes := closes_printOthers others rest
    have first : readArg steps text =
        .ok (.type variance type, printOthers others ++ '>' :: rest) := by
      apply readArg_type named.1 closes start
      exact readType_print named.1 closes (by omega) named.1.skipBlank_print
    rw [readArgs_succ, first]
    apply readOthers_print named.2
    intro behind some all
    apply readArgs_print named.2 some ?_ all
    have length := length_printOthers some
    omega

end

/-- Reading what a type is printed as gives the type back. -/
theorem read_print {type : TypeText} (named : type.Named) : read (print type) = .ok type := by
  have whole : readType (2 * (print type).length + 1) (print type) = .ok (type, []) := by
    have closes : Closes [] := by simp [Closes]
    have start : skipBlank (print type ++ []) = print type ++ [] := named.skipBlank_print
    rw [List.append_nil] at start
    apply readType_print named closes (Nat.le_succ _)
    rw [start, List.append_nil]
  rw [read, whole]
  rfl

theorem isName_ofList {text : List Char} (some : text.takeWhile isNameChar ≠ []) :
    IsName (String.ofList (text.takeWhile isNameChar)) := by
  refine ⟨by simpa using some, ?_⟩
  intro c listed
  rw [String.toList_ofList] at listed
  exact List.mem_takeWhile_imp listed

mutual

theorem named_of_readType : ∀ {steps : Nat} {text rest : List Char} {type : TypeText},
    readType steps text = .ok (type, rest) → type.Named
  | 0, _, _, _, returned => by
    unfold readType at returned
    cases returned
  | steps + 1, text, rest, type, returned => by
    rw [readType_succ] at returned
    split at returned
    · cases returned
    next some =>
      obtain ⟨⟨args, behind⟩, brackets, done⟩ := bind_eq_ok.mp returned
      cases done
      refine ⟨isName_ofList (by simpa using some), ?_⟩
      unfold readBrackets at brackets
      split at brackets
      · exact allNamed_of_readArgs brackets
      · cases brackets
        trivial

theorem allNamed_of_readArgs : ∀ {steps : Nat} {text rest : List Char} {args : List TypeTextArg},
    readArgs steps text = .ok (args, rest) → AllNamed args
  | 0, _, _, _, returned => by
    unfold readArgs at returned
    cases returned
  | steps + 1, text, rest, args, returned => by
    rw [readArgs_succ] at returned
    obtain ⟨⟨arg, behind⟩, first, others⟩ := bind_eq_ok.mp returned
    have named (more : List TypeTextArg) (allNamed : AllNamed more) : AllNamed (arg :: more) := by
      unfold readArg at first
      split at first
      · cases first
        exact allNamed
      · obtain ⟨⟨type, behind⟩, read, done⟩ := bind_eq_ok.mp first
        cases done
        exact ⟨named_of_readType read, allNamed⟩
    unfold readOthers at others
    split at others
    · obtain ⟨⟨more, behind⟩, read, done⟩ := bind_eq_ok.mp others
      cases done
      exact named more (allNamed_of_readArgs read)
    · split at others
      · cases others
        exact named [] trivial
      · cases others

end

theorem named_of_read {text : List Char} {type : TypeText} (returned : read text = .ok type) :
    type.Named := by
  unfold read at returned
  obtain ⟨⟨found, rest⟩, whole, done⟩ := bind_eq_ok.mp returned
  have named := named_of_readType whole
  dsimp only at done
  split at done
  · cases done
    exact named
  · cases done

end Relocation.TypeText
