import Relocation.Project.TypeTable
import Relocation.Text.Alphanumeric
import Relocation.Text.Blank
set_option autoImplicit false

/-!
Written types:

    type := name args? '?'?
    args := '<' arg (',' arg)* '>'
    arg  := '*' | ('out' | 'in')? type

White space may stand before every token. `out` and `in` mean a variance when a space follows them;
otherwise they are names like any other.
-/

namespace Relocation

mutual

inductive TypeText where
  | node (name : String) (args : List TypeTextArg) (nullable : Bool)

inductive TypeTextArg where
  | star
  | type (variance : Variance) (type : TypeText)

end

namespace TypeText

open Text

inductive Problem where
  | noName
  | noSeparator
  | trailing
  deriving DecidableEq, Repr

/-- A problem together with the text from the place where it lies. -/
structure Fault where
  problem : Problem
  rest : List Char

def isNameChar (c : Char) : Bool :=
  isAlphanumeric c || c == '_' || c == '.' || c == '$' || c == '#'

/-- The text after a token of one character, with white space before it. -/
def eat? (token : Char) (text : List Char) : Option (List Char) :=
  match skipBlank text with
  | c :: rest => if c = token then some rest else none
  | [] => none

def takeVariance : List Char → Variance × List Char
  | 'o' :: 'u' :: 't' :: ' ' :: rest => (.out, rest)
  | 'i' :: 'n' :: ' ' :: rest => (.inward, rest)
  | text => (.invariant, text)

def takeNullable (text : List Char) : Bool × List Char :=
  match eat? '?' text with
  | some rest => (true, rest)
  | none => (false, skipBlank text)

mutual

/-- Reads a type at the start of a text. `steps` bounds the length of the descent. -/
def readType : Nat → List Char → Except Fault (TypeText × List Char)
  | 0, text => .error ⟨.noName, skipBlank text⟩
  | steps + 1, text => do
    let start := skipBlank text
    let name := start.takeWhile isNameChar
    let rest := start.dropWhile isNameChar
    if name.isEmpty then throw ⟨.noName, start⟩
    let (args, rest) ←
      match eat? '<' rest with
      | some rest => readArgs steps rest
      | none => pure ([], rest)
    let (nullable, rest) := takeNullable rest
    return (.node (String.ofList name) args nullable, rest)

def readArgs : Nat → List Char → Except Fault (List TypeTextArg × List Char)
  | 0, text => .error ⟨.noName, skipBlank text⟩
  | steps + 1, text => do
    let (arg, rest) ←
      match eat? '*' text with
      | some rest => pure (TypeTextArg.star, rest)
      | none =>
        let (variance, rest) := takeVariance (skipBlank text)
        let (type, rest) ← readType steps rest
        pure (TypeTextArg.type variance type, rest)
    match eat? ',' rest with
    | some rest =>
      let (args, rest) ← readArgs steps rest
      return (arg :: args, rest)
    | none =>
      match eat? '>' rest with
      | some rest => return ([arg], rest)
      | none => throw ⟨.noSeparator, skipBlank rest⟩

end

/-- Reads a whole text as a type. Two steps of the descent take at least one character. -/
def read (text : List Char) : Except Fault TypeText := do
  let (type, rest) ← readType (2 * text.length + 1) text
  match skipBlank rest with
  | [] => return type
  | rest => throw ⟨.trailing, rest⟩

def byteCount : List Char → Nat
  | [] => 0
  | c :: rest => c.utf8Size + byteCount rest

/-- Where a fault lies in a text, counted in bytes. -/
def Fault.offset (fault : Fault) (text : List Char) : Nat :=
  byteCount text - byteCount fault.rest

def Problem.message (problem : Problem) (offset : Nat) : String :=
  match problem with
  | .noName => "expected a type name at offset " ++ toString offset
  | .noSeparator => "expected ',' or '>' at offset " ++ toString offset
  | .trailing => "unexpected input at offset " ++ toString offset

def Fault.message (fault : Fault) (text : List Char) : String :=
  fault.problem.message (fault.offset text)

def variancePrint : Variance → List Char
  | .invariant => []
  | .out => ['o', 'u', 't', ' ']
  | .inward => ['i', 'n', ' ']

mutual

/-- The written form of a type, with a space after each comma and each variance only. -/
def print : TypeText → List Char
  | .node name [] nullable => name.toList ++ (if nullable then ['?'] else [])
  | .node name args nullable =>
    name.toList ++ '<' :: printArgs args ++ '>' :: (if nullable then ['?'] else [])

def printArgs : List TypeTextArg → List Char
  | [] => []
  | [arg] => printArg arg
  | arg :: rest => printArg arg ++ ',' :: ' ' :: printArgs rest

def printArg : TypeTextArg → List Char
  | .star => ['*']
  | .type variance type => variancePrint variance ++ print type

end

end TypeText

end Relocation
