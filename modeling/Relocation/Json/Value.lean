set_option autoImplicit false

/-!
JSON values and their two written forms: compact on one line, and pretty with two spaces for each
level. Members of an object keep their order.
-/

namespace Relocation.Json

inductive Value where
  | null
  | bool (value : Bool)
  | number (value : Nat)
  | string (value : String)
  | array (items : List Value)
  | object (members : List (String × Value))

instance : Inhabited Value := ⟨.null⟩

/-- A control character without an escape of its own is written by its number in hexadecimal. -/
def escapeControl (c : Char) : List Char :=
  ['\\', 'u', '0', '0', Nat.digitChar (c.toNat / 16), Nat.digitChar (c.toNat % 16)]

def escape (c : Char) : List Char :=
  match c with
  | '"' => ['\\', '"']
  | '\\' => ['\\', '\\']
  | '\n' => ['\\', 'n']
  | '\r' => ['\\', 'r']
  | '\t' => ['\\', 't']
  | '\x08' => ['\\', 'b']
  | '\x0c' => ['\\', 'f']
  | c => if c.toNat < 0x20 then escapeControl c else [c]

def quote (text : String) : List Char := '"' :: text.toList.flatMap escape ++ ['"']

namespace Value

def scalar : Value → List Char
  | bool true => ['t', 'r', 'u', 'e']
  | bool false => ['f', 'a', 'l', 's', 'e']
  | number n => (toString n).toList
  | string text => quote text
  | _ => ['n', 'u', 'l', 'l']

mutual

def compact : Value → List Char
  | array items => '[' :: compactItems items ++ [']']
  | object members => '{' :: compactMembers members ++ ['}']
  | value => value.scalar

def compactItems : List Value → List Char
  | [] => []
  | [item] => item.compact
  | item :: rest => item.compact ++ ',' :: compactItems rest

def compactMembers : List (String × Value) → List Char
  | [] => []
  | [(key, value)] => quote key ++ ':' :: value.compact
  | (key, value) :: rest => quote key ++ ':' :: value.compact ++ ',' :: compactMembers rest

end

def newline (level : Nat) : List Char := '\n' :: List.replicate (2 * level) ' '

mutual

/-- The pretty form of a value whose first line already stands at `level`. -/
def pretty (level : Nat) : Value → List Char
  | array [] => ['[', ']']
  | object [] => ['{', '}']
  | array items => '[' :: prettyItems (level + 1) items ++ newline level ++ [']']
  | object members => '{' :: prettyMembers (level + 1) members ++ newline level ++ ['}']
  | value => value.scalar

def prettyItems (level : Nat) : List Value → List Char
  | [] => []
  | [item] => newline level ++ item.pretty level
  | item :: rest => newline level ++ item.pretty level ++ ',' :: prettyItems level rest

def prettyMembers (level : Nat) : List (String × Value) → List Char
  | [] => []
  | [(key, value)] => newline level ++ quote key ++ ':' :: ' ' :: value.pretty level
  | (key, value) :: rest =>
    newline level ++ quote key ++ ':' :: ' ' :: value.pretty level ++
      ',' :: prettyMembers level rest

end

def toCompact (value : Value) : String := String.ofList value.compact

def toPretty (value : Value) : String := String.ofList (value.pretty 0)

end Value

end Relocation.Json
