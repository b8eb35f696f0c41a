set_option autoImplicit false

/-!
Arguments of the command.

Options with a value may be written `--name value`, `--name=value`, `-p value`, `-pvalue` or
`-p=value`. A value in an argument of its own is judged only when the next option comes or the
arguments end, so an unknown argument right after it is reported first. An argument that begins
with a hyphen, other than a lone hyphen, is never the value of the option before it.
-/

namespace Relocation.CommandLine

inductive Format where
  | text
  | json
  deriving DecidableEq, Repr, Inhabited

structure Arguments where
  project : Option String := none
  moveDecls : List String := []
  moveFiles : List String := []
  toDecl : Option String := none
  toFile : Option String := none
  toDir : Option String := none
  package : Option String := none
  newFile : Option String := none
  strictSealed : Bool := false
  relaxedSealed : Bool := false
  format : Option Format := none
  html : Bool := false
  pretty : Bool := false
  noColor : Bool := false
  deriving DecidableEq, Repr, Inhabited

/-- Why the arguments are not taken. Asking for help or for the version ends the reading too. -/
inductive ArgumentError where
  | unknownArgument
  | argumentConflict
  | missingRequired
  | invalidValue
  | tooManyValues
  | helpWanted
  | versionWanted
  deriving DecidableEq, Repr

inductive Setting where
  | project
  | moveDecl
  | moveFile
  | toDecl
  | toFile
  | toDir
  | package
  | newFile
  | format
  deriving DecidableEq, Repr

inductive Switch where
  | strictSealed
  | relaxedSealed
  | html
  | pretty
  | noColor
  | help
  | version
  deriving DecidableEq, Repr

inductive Key where
  | setting (setting : Setting)
  | switch (switch : Switch)
  deriving DecidableEq, Repr

def longNames : List (String × Key) := [
  ("project", .setting .project),
  ("move", .setting .moveDecl),
  ("move-file", .setting .moveFile),
  ("to-decl", .setting .toDecl),
  ("to-file", .setting .toFile),
  ("to-dir", .setting .toDir),
  ("package", .setting .package),
  ("new-file", .setting .newFile),
  ("format", .setting .format),
  ("strict-sealed", .switch .strictSealed),
  ("relaxed-sealed", .switch .relaxedSealed),
  ("html", .switch .html),
  ("pretty", .switch .pretty),
  ("no-color", .switch .noColor),
  ("help", .switch .help),
  ("version", .switch .version)]

def shortNames : List (Char × Key) := [
  ('p', .setting .project),
  ('h', .switch .help),
  ('V', .switch .version)]

def Format.ofName? (name : String) : Option Format :=
  match String.ofList (name.toList.map Char.toLower) with
  | "text" => some .text
  | "json" => some .json
  | _ => none

def setOnce {α : Type} (before : Option α) (after : Except ArgumentError α) :
    Except ArgumentError (Option α) :=
  if before.isSome then .error .argumentConflict else after.map some

def turnOn (before : Bool) : Except ArgumentError Bool :=
  if before then .error .argumentConflict else .ok true

namespace Arguments

def set (a : Arguments) (setting : Setting) (value : String) : Except ArgumentError Arguments := do
  match setting with
  | .project =>
    let path := if value.isEmpty then .error .invalidValue else .ok value
    return { a with project := ← setOnce a.project path }
  | .moveDecl => return { a with moveDecls := a.moveDecls ++ [value] }
  | .moveFile => return { a with moveFiles := a.moveFiles ++ [value] }
  | .toDecl => return { a with toDecl := ← setOnce a.toDecl (.ok value) }
  | .toFile => return { a with toFile := ← setOnce a.toFile (.ok value) }
  | .toDir => return { a with toDir := ← setOnce a.toDir (.ok value) }
  | .package => return { a with package := ← setOnce a.package (.ok value) }
  | .newFile => return { a with newFile := ← setOnce a.newFile (.ok value) }
  | .format =>
    let format :=
      match Format.ofName? value with
      | some format => .ok format
      | none => .error .invalidValue
    return { a with format := ← setOnce a.format format }

def switch (a : Arguments) (switch : Switch) : Except ArgumentError Arguments := do
  match switch with
  | .strictSealed => return { a with strictSealed := ← turnOn a.strictSealed }
  | .relaxedSealed => return { a with relaxedSealed := ← turnOn a.relaxedSealed }
  | .html => return { a with html := ← turnOn a.html }
  | .pretty => return { a with pretty := ← turnOn a.pretty }
  | .noColor => return { a with noColor := ← turnOn a.noColor }
  | .help => throw .helpWanted
  | .version => throw .versionWanted

/-- Rules between options: one target at most, one sealed rule at most; a package and a new file
need a directory, unless another target rules that out. -/
def validate (a : Arguments) : Except ArgumentError Arguments :=
  let targets := [a.toDecl, a.toFile, a.toDir].countP Option.isSome
  if 1 < targets ∨ (a.strictSealed ∧ a.relaxedSealed) then .error .argumentConflict
  else if targets = 0 ∧ (a.package.isSome ∨ a.newFile.isSome) then .error .missingRequired
  else .ok a

end Arguments

/-- The arguments taken so far, and an option whose value is still to come or to be judged. -/
structure Intake where
  arguments : Arguments := {}
  pending : Option (Setting × Option String) := none
  /-- After `--` nothing is an option any more. -/
  escaped : Bool := false
  deriving DecidableEq, Repr

namespace Intake

def settle (s : Intake) : Except ArgumentError Intake :=
  match s.pending with
  | none => .ok s
  | some (_, none) => .error .invalidValue
  | some (setting, some value) => do
    return { s with arguments := ← s.arguments.set setting value, pending := none }

def take (s : Intake) (key : Key) (value : Option String) : Except ArgumentError Intake := do
  match key, value with
  | .setting setting, some value =>
    let s ← s.settle
    return { s with arguments := ← s.arguments.set setting value }
  | .setting setting, none => return { ← s.settle with pending := some (setting, none) }
  | .switch _, some _ => throw .tooManyValues
  | .switch switch, none =>
    let s ← s.settle
    return { s with arguments := ← s.arguments.switch switch }

/-- Takes an option by its long name, with what follows the first equals sign as its value. -/
def takeLong (s : Intake) (text : List Char) : Except ArgumentError Intake :=
  let name := String.ofList (text.takeWhile (· != '='))
  let value :=
    match text.dropWhile (· != '=') with
    | [] => none
    | _ :: value => some (String.ofList value)
  match longNames.lookup name with
  | none => .error .unknownArgument
  | some key => s.take key value

/-- Takes options by their one-letter names. What follows the name of an option with a value is
its value. -/
def takeShort (s : Intake) : List Char → Except ArgumentError Intake
  | [] => .ok s
  | name :: rest =>
    match shortNames.lookup name with
    | none => .error .unknownArgument
    | some (.switch switch) => do takeShort (← s.take (.switch switch) none) rest
    | some (.setting setting) =>
      match rest with
      | [] => s.take (.setting setting) none
      | '=' :: value => s.take (.setting setting) (some (String.ofList value))
      | value => s.take (.setting setting) (some (String.ofList value))

def takeValue (s : Intake) (value : String) : Except ArgumentError Intake :=
  match s.pending with
  | some (setting, none) => .ok { s with pending := some (setting, some value) }
  | _ => .error .unknownArgument

def step (s : Intake) (argument : String) : Except ArgumentError Intake :=
  if s.escaped then .error .unknownArgument
  else
    match argument.toList with
    | ['-', '-'] => .ok { s with escaped := true }
    | '-' :: '-' :: text => s.takeLong text
    | '-' :: name :: rest => s.takeShort (name :: rest)
    | _ => s.takeValue argument

end Intake

namespace Arguments

/-- Reads the arguments of the command, without its name. -/
def read (arguments : List String) : Except ArgumentError Arguments := do
  let intake ← arguments.foldlM Intake.step {}
  (← intake.settle).arguments.validate

end Arguments

end Relocation.CommandLine
