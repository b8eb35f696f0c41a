import Relocation.Json.Lexeme
set_option autoImplicit false

/-!
What a JSON text says up to its first fault, as a tree.

A tree can hold at most one fault that stops the reading; it stands last in text order, and every
container around it is left open. Whoever walks the tree in text order therefore meets a value of
the wrong shape before a later fault of the text, and the other way round.
-/

namespace Relocation.Json

inductive Reading where
  /-- The text ends where a value has to come. -/
  | absent
  /-- Something else stands where a value has to come. -/
  | junk
  | word (word : Word)
  | faultyWord (word : Word) (fault : Fault)
  | number (value : Numeral)
  | faultyNumber (fault : Fault)
  | string (units : List CodeUnit) (fault : Option Fault)
  /-- The items, and why the array is not closed if it is not. -/
  | array (items : List Reading) (fault : Option Fault)
  /-- Members as keys and values. Any reading can stand for a key. -/
  | object (members : List (Reading × Reading)) (fault : Option Fault)

instance : Inhabited Reading := ⟨.absent⟩

/-- A container under way, entries newest first; an object may wait for the value of a key. -/
inductive OpenContainer where
  | array (items : List Reading)
  | object (members : List (Reading × Reading)) (key : Option Reading)

inductive Expected where
  /-- A value or key; a container just opened may be closed instead. -/
  | entry (mayClose : Bool)
  | colon
  /-- A comma or the end of the container. -/
  | separator
  deriving DecidableEq

inductive Builder where
  | within (containers : List OpenContainer) (expected : Expected)
  /-- The value is complete. Anything that follows is out of place. -/
  | complete (value : Reading) (trailing : Bool)

namespace Builder

def place (value : Reading) : List OpenContainer → Builder
  | [] => complete value false
  | .array items :: outer => within (.array (value :: items) :: outer) .separator
  | .object members none :: outer => within (.object members (some value) :: outer) .colon
  | .object members (some key) :: outer =>
    within (.object ((key, value) :: members) none :: outer) .separator

def close (container : OpenContainer) (fault : Option Fault) : Reading :=
  match container with
  | .array items => .array items.reverse fault
  | .object members _ => .object members.reverse fault

/-- Closes all containers from the inside out; `value` goes into the innermost one. -/
def closeAll (fault : Fault) (value : Reading) : List OpenContainer → Reading
  | [] => value
  | container :: outer =>
    let filled : OpenContainer :=
      match container with
      | .array items => .array (value :: items)
      | .object members (some key) => .object ((key, value) :: members) none
      | .object members none => .object ((value, value) :: members) none
    closeAll fault (close filled (some fault)) outer

def halt (fault : Fault) (containers : List OpenContainer) (expected : Expected) : Reading :=
  let missing : Reading := match fault with | .cut => .absent | .broken => .junk
  match expected, fault, containers with
  | .separator, _, container :: outer => closeAll fault (close container (some fault)) outer
  | .entry true, .cut, container :: outer => closeAll fault (close container (some fault)) outer
  | _, _, _ => closeAll fault missing containers

def stepEntry (containers : List OpenContainer) (mayClose : Bool) (lexeme : Lexeme) : Builder :=
  match lexeme, containers with
  | .openArray, _ => within (.array [] :: containers) (.entry true)
  | .openObject, _ => within (.object [] none :: containers) (.entry true)
  | .word word, _ => place (.word word) containers
  | .faultyWord word fault, _ => place (.faultyWord word fault) containers
  | .number value, _ => place (.number value) containers
  | .faultyNumber fault, _ => place (.faultyNumber fault) containers
  | .string units fault, _ => place (.string units fault) containers
  | .closeArray, .array items :: outer =>
    if mayClose then place (close (.array items) none) outer
    else complete (halt .broken containers (.entry mayClose)) false
  | .closeObject, .object members key :: outer =>
    if mayClose then place (close (.object members key) none) outer
    else complete (halt .broken containers (.entry mayClose)) false
  | _, _ => complete (halt .broken containers (.entry mayClose)) false

def stepSeparator (containers : List OpenContainer) (lexeme : Lexeme) : Builder :=
  match lexeme, containers with
  | .comma, _ :: _ => within containers (.entry false)
  | .closeArray, .array items :: outer => place (close (.array items) none) outer
  | .closeObject, .object members key :: outer => place (close (.object members key) none) outer
  | _, _ => complete (halt .broken containers .separator) false

def step (b : Builder) (lexeme : Lexeme) : Builder :=
  match b with
  | complete value _ => complete value true
  | within containers (.entry mayClose) => stepEntry containers mayClose lexeme
  | within containers .colon =>
    match lexeme with
    | .colon => within containers (.entry false)
    | _ => complete (halt .broken containers .colon) false
  | within containers .separator => stepSeparator containers lexeme

end Builder

/-- A whole text: what it says, and whether something follows the value. -/
structure Document where
  value : Reading
  trailing : Bool

def Document.ofLexemes (lexemes : List Lexeme) : Document :=
  match lexemes.foldl Builder.step (.within [] (.entry false)) with
  | .complete value trailing => ⟨value, trailing⟩
  | .within containers expected => ⟨Builder.halt .cut containers expected, false⟩

def read (text : String) : Document := Document.ofLexemes (lexemes text.toList)

end Relocation.Json
