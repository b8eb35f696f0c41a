import Relocation.Json.Reading
set_option autoImplicit false

/-!
Decoding a reading into typed data, in text order: the first thing that is wrong decides.

A decoder is a function on readings. Decoders of containers take the number of levels of nesting
that are still allowed, themselves included. Values of unknown members are not decoded; they only
have to be JSON, and may nest to any depth.
-/

namespace Relocation.Json

inductive ReadError where
  /-- The text ends early. -/
  | cut
  /-- The text is no JSON. -/
  | malformed
  /-- A value is not of the shape that is wanted. -/
  | mismatch
  deriving DecidableEq, Repr

def depthLimit : Nat := 127

abbrev Result (α : Type) : Type := Except ReadError α

def Fault.error : Fault → ReadError
  | .cut => .cut
  | .broken => .malformed

def noFault : Option Fault → Result Unit
  | none => .ok ()
  | some fault => .error fault.error

def isLeadSurrogate (value : Nat) : Bool := 0xD800 ≤ value && value < 0xDC00

def isTrailSurrogate (value : Nat) : Bool := 0xDC00 ≤ value && value < 0xE000

def joinSurrogates (lead trail : Nat) : Char :=
  Char.ofNat (0x10000 + (lead - 0xD800) * 0x400 + (trail - 0xDC00))

/-- The characters of a string. A surrogate counts only as part of a pair. -/
def characters (fault : Option Fault) : List CodeUnit → Result (List Char)
  | [] => do
    noFault fault
    return []
  | .char c :: rest => do return c :: (← characters fault rest)
  | .code value :: rest =>
    if isTrailSurrogate value then .error .malformed
    else if isLeadSurrogate value then
      match rest with
      | [] => do
        noFault fault
        .error .malformed
      | .char _ :: _ => .error .malformed
      | .code trail :: rest =>
        if isTrailSurrogate trail then do
          return joinSurrogates value trail :: (← characters fault rest)
        else .error .malformed
    else do return Char.ofNat value :: (← characters fault rest)

def Reading.unexpected : Reading → ReadError
  | .absent => .cut
  | .junk => .malformed
  | .faultyWord _ fault | .faultyNumber fault => fault.error
  | .number value => if value.isOutOfRange then .malformed else .mismatch
  | .string units fault =>
    match characters fault units with
    | .ok _ => .mismatch
    | .error e => e
  | .word _ | .array _ _ | .object _ _ => .mismatch

def skipKey : Reading → Result Unit
  | .string _ fault => noFault fault
  | .absent => .error .cut
  | _ => .error .malformed

mutual

def skip : Reading → Result Unit
  | .absent => .error .cut
  | .junk | .faultyNumber _ => .error .malformed
  | .faultyWord _ fault => .error fault.error
  | .word _ | .number _ => .ok ()
  | .string _ fault => noFault fault
  | .array items fault => do
    skipItems items
    noFault fault
  | .object members fault => do
    skipMembers members
    noFault fault

def skipItems : List Reading → Result Unit
  | [] => .ok ()
  | item :: rest => do
    skip item
    skipItems rest

def skipMembers : List (Reading × Reading) → Result Unit
  | [] => .ok ()
  | (key, value) :: rest => do
    skipKey key
    skip value
    skipMembers rest

end

def string : Reading → Result String
  | .string units fault => do return String.ofList (← characters fault units)
  | other => .error other.unexpected

def bool : Reading → Result Bool
  | .word .true => .ok true
  | .word .false => .ok false
  | other => .error other.unexpected

def null : Reading → Result Unit
  | .word .null => .ok ()
  | other => .error other.unexpected

/-- A value that may also be `null`, which its first letter decides. -/
def option {α : Type} (decode : Reading → Result α) : Reading → Result (Option α)
  | .word .null => .ok none
  | .faultyWord .null fault => .error fault.error
  | other => do return some (← decode other)

def list {α : Type} (depth : Nat) (item : Reading → Result α) : Reading → Result (List α)
  | .array items fault => do
    if depth = 0 then throw .malformed
    let decoded ← items.mapM item
    noFault fault
    return decoded
  | other => .error other.unexpected

structure RecordField (α : Type) where
  name : String
  required : Bool := false
  decode : Reading → α → Result α

def memberName : Reading → Result String
  | .string units fault => string (.string units fault)
  | .absent => .error .cut
  | _ => .error .malformed

/-- Reads the members of a record in any order. `seen` are the names of the fields read so far,
none of which may come again. -/
def recordMembers {α : Type} (fields : List (RecordField α)) (seen : List String) (value : α) :
    List (Reading × Reading) → Result (List String × α)
  | [] => .ok (seen, value)
  | (key, reading) :: rest => do
    let name ← memberName key
    match fields.find? fun field => field.name == name with
    | none =>
      skip reading
      recordMembers fields seen value rest
    | some field =>
      if seen.contains name then throw .mismatch
      recordMembers fields (name :: seen) (← field.decode reading value) rest

/-- Reads the fields of a record written as an array of their values. Optional fields at the end
may be left out; more values than fields are no part of the record. -/
def recordItems {α : Type} (fault : Option Fault) :
    List (RecordField α) → List Reading → α → Result α
  | [], [], value => do
    noFault fault
    return value
  | [], _ :: _, _ => .error .malformed
  | field :: fields, [], value => do
    noFault fault
    if field.required then throw .mismatch
    recordItems fault fields [] value
  | field :: fields, item :: items, value => do
    recordItems fault fields items (← field.decode item value)

def record {α : Type} (depth : Nat) (fields : List (RecordField α)) (defaults : α) :
    Reading → Result α
  | .array items fault => do
    if depth = 0 then throw .malformed
    recordItems fault fields items defaults
  | .object members fault => do
    if depth = 0 then throw .malformed
    let (seen, value) ← recordMembers fields [] defaults members
    noFault fault
    if fields.any fun field => field.required && !seen.contains field.name then throw .mismatch
    return value
  | other => .error other.unexpected

inductive Alternative (α : Type) where
  | bare (name : String) (value : α)
  | content (name : String) (decode : Reading → Result α)

def Alternative.name {α : Type} : Alternative α → String
  | bare name _ | content name _ => name

def choice {α : Type} (depth : Nat) (alternatives : List (Alternative α)) :
    Reading → Result α
  | .string units fault => do
    let name ← string (.string units fault)
    match alternatives.find? fun alternative => alternative.name == name with
    | some (.bare _ value) => return value
    | _ => throw .mismatch
  | .object members fault => do
    if depth = 0 then throw .malformed
    match members with
    | [] =>
      noFault fault
      throw .malformed
    | (key, reading) :: rest =>
      let name ← memberName key
      let value ←
        match alternatives.find? fun alternative => alternative.name == name with
        | none => throw .mismatch
        | some (.bare _ value) =>
          null reading
          pure value
        | some (.content _ decode) => decode reading
      if !rest.isEmpty then throw .malformed
      noFault fault
      return value
  | .absent => .error .cut
  | _ => .error .malformed

/-- Decodes a whole text. -/
def decode {α : Type} (decoder : Reading → Result α) (text : String) : Result α := do
  let document := read text
  let value ← decoder document.value
  if document.trailing then throw .malformed
  return value

end Relocation.Json
