import Relocation.CommandLine.Run
set_option autoImplicit false

/-!
The command. It prints the conflicts of a move and ends with status 1 if there are any, 0 if there
are none, and 2 if the arguments are wrong.
-/

namespace Relocation.CommandLine

def usage : String :=
  "Report conflicts a move-declaration refactoring would introduce\n\n" ++
  "Usage: movecheck [OPTIONS]\n\n" ++
  "Options:\n" ++
  "  -p, --project <PROJECT>  Path to movecheck.json or a directory containing it\n" ++
  "      --move <DECL>        Declaration to move, by qualified name. Repeatable\n" ++
  "      --move-file <PATH>   File to move, by project path. Repeatable\n" ++
  "      --to-decl <DECL>     Move into an existing declaration\n" ++
  "      --to-file <PATH>     Move into an existing file\n" ++
  "      --to-dir <PATH>      Move into a new file of a source directory\n" ++
  "      --package <PACKAGE>  Package for a directory target\n" ++
  "      --new-file <NAME>    Name of the file a directory move will create\n" ++
  "      --strict-sealed      Sealed inheritors must share a file with their parent\n" ++
  "      --relaxed-sealed     Sealed inheritors may live anywhere in the parent's package\n" ++
  "      --format <FORMAT>    Output format: text or json\n" ++
  "      --html               Emphasize names in messages with HTML markup\n" ++
  "      --pretty             Pretty-print JSON output\n" ++
  "      --no-color           Disable colored text output\n" ++
  "  -h, --help               Print help\n" ++
  "  -V, --version            Print version\n"

def argumentText : ArgumentError → String
  | .unknownArgument => "unexpected argument"
  | .argumentConflict => "arguments that cannot be used together or more than once"
  | .missingRequired => "a required argument was not provided: --to-dir"
  | .invalidValue => "missing or invalid value of an option"
  | .tooManyValues => "unexpected value of an option"
  | .helpWanted | .versionWanted => ""

inductive Content where
  | directory
  | text (text : String)
  | unreadable (reason : String)

def observe (directory path : String) : IO Content := do
  try
    let here ← IO.FS.realPath ⟨directory⟩
    if ← (here / path).isDir then return .directory
    return .text (← IO.FS.readFile ⟨path⟩)
  catch error => return .unreadable (toString error)

/-- The files that a run looks at: the project path, and the manifest below it. -/
def filesAt (directory path : String) : IO Files := do
  let below := joinPath path manifestName
  let contents := [(path, ← observe directory path), (below, ← observe directory below)]
  return {
    isDirectory := fun path =>
      match contents.lookup path with
      | some .directory => true
      | _ => false
    read := fun path =>
      match contents.lookup path with
      | some (.text text) => .ok text
      | some (.unreadable reason) => .error reason
      | _ => .error "is a directory" }

def runHere (arguments : Arguments) : IO UInt32 := do
  let directory := toString (← IO.currentDir)
  let files ← filesAt directory (projectPath directory arguments.project)
  let terminal ← (← IO.getStdout).isTty
  match run files directory terminal arguments with
  | .error error =>
    IO.eprintln ("Error: " ++ String.intercalate "\n\nCaused by:\n    " error.causes)
    return 1
  | .ok outcome =>
    IO.print outcome.text
    if arguments.format = some .json then IO.println ""
    return UInt32.ofNat outcome.status

def command (arguments : List String) : IO UInt32 := do
  match Arguments.read arguments with
  | .error .helpWanted =>
    IO.print usage
    return 0
  | .error .versionWanted =>
    IO.println "movecheck 0.1.0"
    return 0
  | .error error =>
    IO.eprintln ("error: " ++ argumentText error)
    return 2
  | .ok arguments => runHere arguments

end Relocation.CommandLine

def main (arguments : List String) : IO UInt32 := Relocation.CommandLine.command arguments
