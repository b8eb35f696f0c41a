set_option autoImplicit false

/-!
The lexemes of a JSON text, up to the first one that cannot be completed.

A lexeme that the text breaks off or spoils is kept together with its fault, because a reader that
wants another kind of value there, or none, may judge it differently. Nothing follows it.
-/

namespace Relocation.Json

/-- Why a lexeme or a container is incomplete: the text ends, or goes on with a character that
does not belong there. -/
inductive Fault where
  | cut
  | broken
  deriving DecidableEq, Repr

inductive Word where
  | null
  | true
  | false
  deriving DecidableEq, Repr

/-- A character of a string, or a code unit written as `\u` and four hexadecimal digits. -/
inductive CodeUnit where
  | char (c : Char)
  | code (value : Nat)
  deriving DecidableEq, Repr

/-- A number as far as its size matters. The significand keeps the leading digits that fit in 64
bits; whole digits beyond them raise `scale`, kept digits after the point lower it. -/
structure Numeral where
  significand : Nat := 0
  scale : Int := 0
  full : Bool := false
  exponent : Nat := 0
  exponentNegative : Bool := false
  deriving DecidableEq, Repr

inductive Lexeme where
  | openArray
  | closeArray
  | openObject
  | closeObject
  | colon
  | comma
  | word (word : Word)
  | faultyWord (word : Word) (fault : Fault)
  | number (value : Numeral)
  | faultyNumber (fault : Fault)
  | string (units : List CodeUnit) (fault : Option Fault)
  /-- A character with which no lexeme starts. -/
  | junk
  deriving DecidableEq, Repr

namespace Numeral

def bound : Nat := 0x10000000000000000

def wholeDigit (n : Numeral) (digit : Nat) : Numeral :=
  let significand := 10 * n.significand + digit
  if n.full || bound ≤ significand then { n with full := true, scale := n.scale + 1 }
  else { n with significand }

def fractionDigit (n : Numeral) (digit : Nat) : Numeral :=
  let significand := 10 * n.significand + digit
  if n.full || bound ≤ significand then { n with full := true }
  else { n with significand, scale := n.scale - 1 }

def point (n : Numeral) : Numeral := { n with full := false }

def exponentDigit (n : Numeral) (digit : Nat) : Numeral :=
  { n with exponent := 10 * n.exponent + digit }

def power (n : Numeral) : Int :=
  if n.exponentNegative then n.scale - n.exponent else n.scale + n.exponent

def isOutOfRange (n : Numeral) : Bool :=
  n.significand != 0 && decide (0 ≤ n.power) &&
    (decide (308 < n.power) ||
      ((UInt64.ofNat n.significand).toFloat * Float.ofScientific 1 false n.power.toNat).isInf)

end Numeral

inductive NumberPhase where
  | minus
  | zero
  | whole
  | point
  | fraction
  | exponentMark
  | exponentSign
  | exponent
  deriving DecidableEq, Repr

inductive NumberStep where
  | more (phase : NumberPhase) (value : Numeral)
  | done
  | broken

def digit? (c : Char) : Option Nat := if c.isDigit then some (c.toNat - '0'.toNat) else none

def hexDigit? (c : Char) : Option Nat :=
  if c.isDigit then some (c.toNat - '0'.toNat)
  else if 'a' ≤ c && c ≤ 'f' then some (c.toNat - 'a'.toNat + 10)
  else if 'A' ≤ c && c ≤ 'F' then some (c.toNat - 'A'.toNat + 10)
  else none

namespace NumberPhase

def isComplete : NumberPhase → Bool
  | zero | whole | fraction | exponent => true
  | _ => false

def startExponent (n : Numeral) (c : Char) (otherwise : NumberStep) : NumberStep :=
  if c == 'e' || c == 'E' then .more .exponentMark n else otherwise

def startFraction (n : Numeral) (c : Char) (otherwise : NumberStep) : NumberStep :=
  if c == '.' then .more .point n.point else startExponent n c otherwise

def next (n : Numeral) (c : Char) : NumberPhase → NumberStep
  | minus =>
    match digit? c with
    | some 0 => .more .zero n
    | some d => .more .whole (n.wholeDigit d)
    | none => .broken
  | zero => startFraction n c (if c.isDigit then .broken else .done)
  | whole =>
    match digit? c with
    | some d => .more .whole (n.wholeDigit d)
    | none => startFraction n c .done
  | point =>
    match digit? c with
    | some d => .more .fraction (n.fractionDigit d)
    | none => .broken
  | fraction =>
    match digit? c with
    | some d => .more .fraction (n.fractionDigit d)
    | none => startExponent n c .done
  | exponentMark =>
    match digit? c with
    | some d => .more .exponent (n.exponentDigit d)
    | none =>
      if c == '+' then .more .exponentSign n
      else if c == '-' then .more .exponentSign { n with exponentNegative := true }
      else .broken
  | exponentSign =>
    match digit? c with
    | some d => .more .exponent (n.exponentDigit d)
    | none => .broken
  | exponent =>
    match digit? c with
    | some d => .more .exponent (n.exponentDigit d)
    | none => .done

end NumberPhase

/-- Where the scanner stands within the text. Units of a string are kept newest first. -/
inductive ScanMode where
  | between
  | word (word : Word) (rest : List Char)
  | number (phase : NumberPhase) (value : Numeral)
  | string (units : List CodeUnit)
  | escape (units : List CodeUnit)
  /-- After `\u`, with the bytes read, the value so far, and whether all were digits. -/
  | code (units : List CodeUnit) (bytes value : Nat) (valid : Bool)
  | stopped
  deriving DecidableEq, Repr

/-- The lexemes completed so far, newest first, and the one under way. -/
structure Scanner where
  lexemes : List Lexeme := []
  mode : ScanMode := .between
  deriving DecidableEq, Repr

namespace Scanner

def emit (s : Scanner) (lexeme : Lexeme) : Scanner := ⟨lexeme :: s.lexemes, .between⟩

def stop (s : Scanner) (lexeme : Lexeme) : Scanner := ⟨lexeme :: s.lexemes, .stopped⟩

def isSpace (c : Char) : Bool := c == ' ' || c == '\t' || c == '\n' || c == '\r'

def start (s : Scanner) (c : Char) : Scanner :=
  if isSpace c then { s with mode := .between }
  else
    match c with
    | '[' => s.emit .openArray
    | ']' => s.emit .closeArray
    | '{' => s.emit .openObject
    | '}' => s.emit .closeObject
    | ':' => s.emit .colon
    | ',' => s.emit .comma
    | '"' => { s with mode := .string [] }
    | 'n' => { s with mode := .word .null ['u', 'l', 'l'] }
    | 't' => { s with mode := .word .true ['r', 'u', 'e'] }
    | 'f' => { s with mode := .word .false ['a', 'l', 's', 'e'] }
    | '-' => { s with mode := .number .minus {} }
    | c =>
      match digit? c with
      | some 0 => { s with mode := .number .zero {} }
      | some d => { s with mode := .number .whole (Numeral.wholeDigit {} d) }
      | none => s.stop .junk

def unescape? : Char → Option Char
  | '"' => some '"'
  | '\\' => some '\\'
  | '/' => some '/'
  | 'b' => some '\x08'
  | 'f' => some '\x0c'
  | 'n' => some '\n'
  | 'r' => some '\r'
  | 't' => some '\t'
  | _ => none

/-- The four characters after `\u` are looked at together, so the text may end among them even
when one is no digit. -/
def stepCode (s : Scanner) (units : List CodeUnit) (bytes value : Nat) (valid : Bool) (c : Char) :
    Scanner :=
  let bytes := bytes + c.utf8Size
  let value := 16 * value + (hexDigit? c).getD 0
  let valid := valid && (hexDigit? c).isSome
  if bytes < 4 then { s with mode := .code units bytes value valid }
  else if valid then { s with mode := .string (.code value :: units) }
  else s.stop (.string units.reverse (some .broken))

def step (s : Scanner) (c : Char) : Scanner :=
  match s.mode with
  | .stopped => s
  | .between => s.start c
  | .word word rest =>
    match rest with
    | [] => s.stop (.faultyWord word .broken)
    | expected :: rest =>
      if c ≠ expected then s.stop (.faultyWord word .broken)
      else if rest.isEmpty then s.emit (.word word)
      else { s with mode := .word word rest }
  | .number phase value =>
    match phase.next value c with
    | .more phase value => { s with mode := .number phase value }
    | .done => (s.emit (.number value)).start c
    | .broken => s.stop (.faultyNumber .broken)
  | .string units =>
    if c == '"' then s.emit (.string units.reverse none)
    else if c == '\\' then { s with mode := .escape units }
    else if c.toNat < 0x20 then s.stop (.string units.reverse (some .broken))
    else { s with mode := .string (.char c :: units) }
  | .escape units =>
    if c == 'u' then { s with mode := .code units 0 0 true }
    else
      match unescape? c with
      | some c => { s with mode := .string (.char c :: units) }
      | none => s.stop (.string units.reverse (some .broken))
  | .code units bytes value valid => s.stepCode units bytes value valid c

def finish (s : Scanner) : List Lexeme :=
  let last : List Lexeme :=
    match s.mode with
    | .stopped | .between => []
    | .word word _ => [.faultyWord word .cut]
    | .number phase value =>
      if phase.isComplete then [.number value] else [.faultyNumber .cut]
    | .string units | .escape units | .code units _ _ _ => [.string units.reverse (some .cut)]
  s.lexemes.reverse ++ last

end Scanner

def lexemes (text : List Char) : List Lexeme := (text.foldl Scanner.step {}).finish

end Relocation.Json
