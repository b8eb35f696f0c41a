import Relocation.Json.Decode
import Relocation.Manifest.Spelling
set_option autoImplicit false

/-!
Reading manifests from JSON. A record may also be written as an array of its fields in the order
in which they are listed here.
-/

namespace Relocation.Manifest

open Json

def required {α β : Type} (name : String) (decode : Reading → Result β) (set : α → β → α) :
    RecordField α where
  name
  required := true
  decode reading record := do return set record (← decode reading)

def optional {α β : Type} (name : String) (decode : Reading → Result β) (set : α → β → α) :
    RecordField α where
  name
  decode reading record := do return set record (← decode reading)

def spelled {α : Type} (depth : Nat) (spelling : Spelling α) : Reading → Result α :=
  choice depth (spelling.map fun entry => .bare entry.1 entry.2)

def settingsOfReading (depth : Nat) : Reading → Result LanguageSettings :=
  record depth
    [optional "sealedInheritorsInSamePackage" bool fun s v =>
      { s with sealedInheritorsInSamePackage := v }]
    {}

def SdkEntry.ofReading (depth : Nat) : Reading → Result SdkEntry :=
  record depth
    [required "name" string fun e v => { e with name := v },
      required "kind" (spelled (depth - 1) sdkKinds) fun e v => { e with kind := v }]
    default

def LibraryEntry.ofReading (depth : Nat) : Reading → Result LibraryEntry :=
  record depth
    [required "name" string fun e v => { e with name := v },
      required "platform" (spelled (depth - 1) platforms) fun e v => { e with platform := v }]
    default

def ModuleEntry.ofReading (depth : Nat) : Reading → Result ModuleEntry :=
  let names := list (depth - 1) string
  record depth
    [required "name" string fun e v => { e with name := v },
      required "platform" (spelled (depth - 1) platforms) fun e v => { e with platform := v },
      optional "dependencies" names fun e v => { e with dependencies := v },
      optional "libraries" names fun e v => { e with libraries := v },
      optional "sdks" names fun e v => { e with sdks := v },
      optional "implements" names fun e v => { e with implements := v }]
    default

def DirectoryEntry.ofReading (depth : Nat) : Reading → Result DirectoryEntry :=
  record depth
    [required "path" string fun e v => { e with path := v },
      optional "package" string fun e v => { e with package := v },
      optional "module" (option string) fun e v => { e with module := v },
      optional "test" bool fun e v => { e with test := v },
      optional "library" (option string) fun e v => { e with library := v },
      optional "sdk" (option string) fun e v => { e with sdk := v }]
    default

def ParamEntry.ofReading (depth : Nat) : Reading → Result ParamEntry :=
  record depth
    [required "name" string fun e v => { e with name := v },
      required "type" string fun e v => { e with type := v }]
    default

def onHead (field : RecordField DeclHead) : RecordField DeclEntry where
  name := field.name
  required := field.required
  decode reading entry := do
    return .node (← field.decode reading entry.head) entry.members

def flag (name : String) (set : DeclFlags → Bool → DeclFlags) : RecordField DeclHead :=
  optional name bool fun e v => { e with flags := set e.flags v }

def DeclHead.fields (depth : Nat) : List (RecordField DeclHead) :=
  let names := list (depth - 1) string
  [optional "id" (option string) fun e v => { e with id := v },
    required "kind" (spelled (depth - 1) declKinds) fun e v => { e with kind := v },
    optional "name" string fun e v => { e with name := v },
    optional "visibility" (option (spelled (depth - 1) visibilities)) fun e v =>
      { e with visibility := v },
    optional "modality" (option (spelled (depth - 1) modalities)) fun e v =>
      { e with modality := v },
    optional "language" (option (spelled (depth - 1) languages)) fun e v =>
      { e with language := v },
    flag "companion" fun f v => { f with companion := v },
    flag "expect" fun f v => { f with expect := v },
    flag "actual" fun f v => { f with actual := v },
    flag "optionalExpectation" fun f v => { f with optionalExpectation := v },
    flag "builtin" fun f v => { f with builtin := v },
    flag "primary" fun f v => { f with primaryConstructor := v },
    optional "supertypes" names fun e v => { e with supertypes := v },
    optional "overrides" names fun e v => { e with overrides := v },
    optional "params" (list (depth - 1) (ParamEntry.ofReading (depth - 2))) fun e v =>
      { e with params := v },
    optional "type" (option string) fun e v => { e with type := v },
    optional "bounds" names fun e v => { e with bounds := v }]

def declRecord (depth : Nat) (members : Reading → Result (List DeclEntry)) :
    Reading → Result DeclEntry :=
  record depth
    ((DeclHead.fields depth).map onHead ++
      [optional "members" members fun e v => .node e.head v])
    default

/-- Each level of members takes two levels of nesting: the list and the entry in it. -/
def DeclEntry.ofReading : Nat → Reading → Result DeclEntry
  | 0 => declRecord 0 (list 0 fun _ => .error .malformed)
  | 1 => declRecord 1 (list 0 fun _ => .error .malformed)
  | depth + 2 => declRecord (depth + 2) (list (depth + 1) (DeclEntry.ofReading depth))

def FileEntry.ofReading (depth : Nat) : Reading → Result FileEntry :=
  record depth
    [required "directory" string fun e v => { e with directory := v },
      required "name" string fun e v => { e with name := v },
      optional "package" (option string) fun e v => { e with package := v },
      optional "declarations" (list (depth - 1) (DeclEntry.ofReading (depth - 2))) fun e v =>
        { e with declarations := v }]
    default

def ReferenceEntry.ofReading (depth : Nat) : Reading → Result ReferenceEntry :=
  record depth
    [optional "from" (option string) fun e v => { e with source := v },
      optional "file" (option string) fun e v => { e with file := v },
      optional "to" (option string) fun e v => { e with target := v },
      optional "inImport" bool fun e v => { e with inImport := v },
      optional "inSupertypeList" bool fun e v => { e with inSupertypeList := v },
      optional "nonCode" bool fun e v => { e with nonCode := v }]
    default

structure DirectoryTarget where
  directory : String := ""
  package : Option String := none
  fileName : String := ""

def directoryTarget (depth : Nat) (reading : Reading) : Result TargetEntry := do
  let target ← record depth
    [required "path" string fun (e : DirectoryTarget) v => { e with directory := v },
      optional "package" (option string) fun e v => { e with package := v }]
    {} reading
  return .directory target.directory target.package

def deferredTarget (depth : Nat) (reading : Reading) : Result TargetEntry := do
  let target ← record depth
    [required "directory" string fun (e : DirectoryTarget) v => { e with directory := v },
      optional "package" (option string) fun e v => { e with package := v },
      required "fileName" string fun e v => { e with fileName := v }]
    {} reading
  return .deferredFile target.directory target.package target.fileName

def TargetEntry.ofReading (depth : Nat) : Reading → Result TargetEntry :=
  choice depth
    [.content "existingDecl" fun reading => do return .existingDecl (← string reading),
      .content "existingFile" fun reading => do return .existingFile (← string reading),
      .content "directory" (directoryTarget (depth - 1)),
      .content "deferredFile" (deferredTarget (depth - 1))]

def MoveEntry.ofReading (depth : Nat) : Reading → Result MoveEntry :=
  record depth
    [optional "declarations" (list (depth - 1) string) fun e v => { e with declarations := v },
      optional "files" (list (depth - 1) string) fun e v => { e with files := v },
      required "target" (TargetEntry.ofReading (depth - 1)) fun e v => { e with target := v }]
    default

def ofReading (depth : Nat) : Reading → Result Manifest :=
  record depth
    [optional "settings" (settingsOfReading (depth - 1)) fun m v => { m with settings := v },
      optional "sdks" (list (depth - 1) (SdkEntry.ofReading (depth - 2))) fun m v =>
        { m with sdks := v },
      optional "libraries" (list (depth - 1) (LibraryEntry.ofReading (depth - 2))) fun m v =>
        { m with libraries := v },
      optional "modules" (list (depth - 1) (ModuleEntry.ofReading (depth - 2))) fun m v =>
        { m with modules := v },
      optional "directories" (list (depth - 1) (DirectoryEntry.ofReading (depth - 2))) fun m v =>
        { m with directories := v },
      optional "files" (list (depth - 1) (FileEntry.ofReading (depth - 2))) fun m v =>
        { m with files := v },
      optional "references" (list (depth - 1) (ReferenceEntry.ofReading (depth - 2))) fun m v =>
        { m with references := v },
      optional "move" (option (MoveEntry.ofReading (depth - 1))) fun m v => { m with move := v }]
    {}

def ofJson (text : String) : Result Manifest := decode (ofReading depthLimit) text

def MoveEntry.ofJson (text : String) : Result MoveEntry :=
  decode (MoveEntry.ofReading depthLimit) text

end Relocation.Manifest
