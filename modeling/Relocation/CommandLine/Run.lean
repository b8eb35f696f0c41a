import Relocation.CommandLine.Arguments
import Relocation.CommandLine.Output
import Relocation.Manifest.Decode
set_option autoImplicit false

/-!
Running the command: finding and reading the manifest, settling what moves where, checking it, and
writing the result.

The files of the machine come in as a `Files` record, so that everything here is plain computation.
-/

namespace Relocation.CommandLine

/-- The files that a run can see. A file that cannot be read has the reason in its place. -/
structure Files where
  isDirectory : String → Bool
  read : String → Except String String

inductive RunError where
  | unreadable (path reason : String)
  | notManifest (path : String) (error : Json.ReadError)
  | noMove
  | noTarget
  | inconsistent (path : String) (problem : Manifest.Problem)
  | unresolved (problem : Manifest.Problem)
  | loneHierarchy (fault : LoneHierarchy)

def readErrorWord : Json.ReadError → String
  | .malformed => "Syntax"
  | .mismatch => "Data"
  | .cut => "Eof"

namespace RunError

def causes : RunError → List String
  | unreadable path reason => ["failed to read manifest: " ++ path, reason]
  | notManifest path error =>
    ["failed to load manifest: " ++ path, "failed to parse manifest JSON",
      "invalid manifest JSON (" ++ readErrorWord error ++ ")"]
  | noMove => ["no move requested: pass --move or --move-file, or add a \"move\" section"]
  | noTarget => ["a move target is required: pass one of --to-decl, --to-file or --to-dir"]
  | inconsistent path problem => ["inconsistent manifest: " ++ path, problem.message]
  | unresolved problem => ["failed to resolve move request", problem.message]
  | loneHierarchy fault => [fault.message]

end RunError

def manifestName : String := "movecheck.json"

/-- A path below a directory; an absolute path stands for itself. -/
def joinPath (directory path : String) : String :=
  if path.startsWith "/" then path
  else if directory.isEmpty || directory.endsWith "/" then directory ++ path
  else directory ++ "/" ++ path

def projectPath (directory : String) (project : Option String) : String :=
  (project.map (joinPath directory)).getD directory

def manifestPath (files : Files) (directory : String) (project : Option String) : String :=
  let path := projectPath directory project
  if files.isDirectory path then joinPath path manifestName else path

def loadManifest (files : Files) (path : String) : Except RunError Manifest := do
  let text ← (files.read path).mapError (.unreadable path)
  (Manifest.ofJson text).mapError (.notManifest path)

namespace Arguments

variable (a : Arguments)

def target? : Option Manifest.TargetEntry :=
  match a.toDecl, a.toFile, a.toDir with
  | some name, _, _ => some (.existingDecl name)
  | none, some path, _ => some (.existingFile path)
  | none, none, some path =>
    match a.newFile with
    | some name => some (.deferredFile path a.package name)
    | none => some (.directory path a.package)
  | none, none, none => none

/-- What moves and where: as the arguments say if they name anything to move, else as the manifest
says. -/
def request (manifest : Manifest) : Except RunError Manifest.MoveEntry :=
  if a.moveDecls.isEmpty ∧ a.moveFiles.isEmpty then
    match manifest.move with
    | some request => .ok request
    | none => .error .noMove
  else
    match a.target? with
    | some target => .ok { declarations := a.moveDecls, files := a.moveFiles, target }
    | none => .error .noTarget

/-- The options of the check; a sealed rule among the arguments wins over the manifest. -/
def options (manifest : Manifest) : CheckOptions where
  language :=
    if a.relaxedSealed then { sealedInheritorsInSamePackage := true }
    else if a.strictSealed then { sealedInheritorsInSamePackage := false }
    else manifest.settings
  style := if a.html then .html else .plain

def check (files : Files) (directory : String) : Except RunError (Project × CheckResult) := do
  let path := manifestPath files directory a.project
  let manifest ← loadManifest files path
  let request ← a.request manifest
  let project ← manifest.load.mapError (.inconsistent path)
  let result ←
    (project.checkMove project.services (a.options manifest) request).mapError fun
      | .unresolved problem => RunError.unresolved problem
      | .loneHierarchy fault => .loneHierarchy fault
  return (project, result)

def render (terminal : Bool) (project : Project) (result : CheckResult) : String :=
  match a.format.getD .text with
  | .text => project.reportText (terminal && !a.noColor) result.report
  | .json => project.resultJson a.pretty result

end Arguments

/-- What a finished run prints, and the status it ends with: whether there are conflicts. -/
structure Outcome where
  status : Nat
  text : String
  deriving DecidableEq, Repr

def run (files : Files) (directory : String) (terminal : Bool) (a : Arguments) :
    Except RunError Outcome := do
  let (project, result) ← a.check files directory
  return {
    status := if result.report.isEmpty then 0 else 1
    text := a.render terminal project result }

end Relocation.CommandLine
