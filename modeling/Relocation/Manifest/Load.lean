import Relocation.Manifest.Entry
import Relocation.Manifest.Problem
import Relocation.Project.Build
set_option autoImplicit false

/-!
Building the project that a manifest describes.

Declarations are added first, an entry before its members. Types, overrides and references name
declarations, so they are resolved once all declarations are there, the members of a declaration
before the declaration itself.
-/

namespace Relocation.Manifest

/-- What names stand for; the entry nearest to the front counts. -/
abbrev Names (α : Type) : Type := List (String × α)

/-- The project under way with the names given so far. -/
structure Loader where
  project : Project := {}
  sdks : Names SdkId := []
  libraries : Names LibraryId := []
  modules : Names ModuleId := []
  directories : Names DirId := []
  decls : Names DeclId := []
  /-- Declarations whose types and overrides are still to be resolved. -/
  pending : List (DeclId × DeclHead) := []

namespace Loader

def find {α : Type} (names : Names α) (problem : String → Problem) (name : String) :
    Except Problem α :=
  match names.lookup name with
  | some id => .ok id
  | none => .error (problem name)

variable (l : Loader)

def findModule (name : String) : Except Problem ModuleId := find l.modules .unknownModule name

def findLibrary (name : String) : Except Problem LibraryId :=
  find l.libraries .unknownLibrary name

def findSdk (name : String) : Except Problem SdkId := find l.sdks .unknownSdk name

def findDecl (name : String) : Except Problem DeclId := find l.decls .unknownDecl name

def addSdk (e : SdkEntry) : Loader :=
  { l with
    project := l.project.addSdk e.name e.kind
    sdks := (e.name, l.project.nextSdk) :: l.sdks }

def addLibrary (e : LibraryEntry) : Loader :=
  { l with
    project := l.project.addLibrary e.name e.platform
    libraries := (e.name, l.project.nextLibrary) :: l.libraries }

def addModule (e : ModuleEntry) : Loader :=
  { l with
    project := l.project.addModule e.name e.platform
    modules := (e.name, l.project.nextModule) :: l.modules }

def link {α : Type} (find : String → Except Problem α) (add : Project → α → Project)
    (names : List String) : Except Problem Loader := do
  let project ← names.foldlM (fun project name => do return add project (← find name)) l.project
  return { l with project }

def connect (e : ModuleEntry) : Except Problem Loader := do
  let id ← l.findModule e.name
  let l ← l.link l.findModule (fun p dependency => p.addDependency id dependency) e.dependencies
  let l ← l.link l.findLibrary (fun p library => p.attachLibrary id library) e.libraries
  let l ← l.link l.findSdk (fun p sdk => p.attachSdk id sdk) e.sdks
  l.link l.findModule (fun p common => p.addImplemented id common) e.implements

/-- The source root of a directory, which names exactly one of module, library and SDK. -/
def rootOf (e : DirectoryEntry) : Except Problem SourceRoot :=
  match e.module, e.library, e.sdk with
  | some name, none, none => do return .module (← l.findModule name) e.test
  | none, some name, none => do return .library (← l.findLibrary name)
  | none, none, some name => do return .sdk (← l.findSdk name)
  | _, _, _ => .error (.ambiguousRoot e.path)

def addDirectory (e : DirectoryEntry) : Except Problem Loader := do
  let root ← l.rootOf e
  return { l with
    project := l.project.addDirectory e.path root ⟨e.package⟩
    directories := (e.path, l.project.nextDir) :: l.directories }

def canContain (owner member : DeclKind) : Bool :=
  owner.isClassLike || owner.isCallable || member == .typeParameter

def nameOf (parent : Parent) (head : DeclHead) : String :=
  match head.kind, parent with
  | .constructor, .decl owner =>
    if head.name.isEmpty then (l.project.decl owner).name else head.name
  | _, _ => head.name

/-- Gives a declaration the name `name`, unless an earlier one has it. -/
def nameIfNew (name : String) (id : DeclId) : Loader :=
  if (l.decls.lookup name).isSome then l else { l with decls := (name, id) :: l.decls }

/-- Gives a declaration its `id`, whatever that stood for before. -/
def nameById (name : Option String) (id : DeclId) : Loader :=
  match name with
  | some name => { l with decls := (name, id) :: l.decls }
  | none => l

def declare (parent : Parent) (head : DeclHead) : Loader :=
  let id := l.project.nextDecl
  let project := l.project.addDecl {
    name := l.nameOf parent head
    kind := head.kind
    parent
    visibility := head.visibility.getD .pub
    modality := head.modality.getD .final
    language := head.language.getD .source
    flags := head.flags }
  let l := { l with project }
  (l.nameIfNew (l.project.qualifiedName id).text id).nameById head.id id

mutual

def addDecl (parent : Parent) : DeclEntry → Loader → Except Problem Loader
  | .node head members, l => do
    if let .decl owner := parent then
      if !canContain (l.project.decl owner).kind head.kind then
        throw (.invalidMember head.name)
    let id := l.project.nextDecl
    let l ← addDecls (.decl id) members (l.declare parent head)
    return { l with pending := l.pending ++ [(id, head)] }

def addDecls (parent : Parent) : List DeclEntry → Loader → Except Problem Loader
  | [], l => .ok l
  | entry :: rest, l => do addDecls parent rest (← addDecl parent entry l)

end

def addFile (e : FileEntry) : Except Problem Loader := do
  let directory ← find l.directories .unknownDirectory e.directory
  let id := l.project.nextFile
  let project := l.project.addFile directory e.name (e.package.map QualifiedName.mk)
  addDecls (.file id) e.declarations { l with project }

/-- The type parameter of a name that is in scope within a declaration, the innermost first. -/
def typeParameter? (p : Project) (context : DeclId) (name : String) : Option DeclId :=
  (p.lineage context).findSome? fun owner =>
    (p.members owner).find? fun member =>
      (p.decl member).kind == .typeParameter && (p.decl member).name == name

mutual

/-- Interns a written type that stands within `context`; `text` is the whole text around it. -/
def internType (names : Names DeclId) (context : DeclId) (text : String) :
    TypeText → Project → Except Problem (TypeId × Project)
  | .node name args nullable, p =>
    if name == "Any" && args.isEmpty then
      .ok (if nullable then TypeTable.nullableAny else TypeTable.any, p)
    else
      match if args.isEmpty then typeParameter? p context name else none with
      | some param =>
        let (type, p) := p.paramType param
        .ok (if nullable then p.nullableType type else (type, p))
      | none =>
        match names.lookup name with
        | none => .error (.invalidType text (.unknownClassifier name))
        | some classifier => do
          let (args, p) ← internArgs names context text args p
          return p.internType (.applied classifier args nullable)

def internArgs (names : Names DeclId) (context : DeclId) (text : String) :
    List TypeTextArg → Project → Except Problem (List TypeArg × Project)
  | [], p => .ok ([], p)
  | .star :: rest, p => do
    let (args, p) ← internArgs names context text rest p
    return (.star :: args, p)
  | .type variance type :: rest, p => do
    let (type, p) ← internType names context text type p
    let (args, p) ← internArgs names context text rest p
    return (.type variance type :: args, p)

end

def resolveType (names : Names DeclId) (p : Project) (context : DeclId) (text : String) :
    Except Problem (TypeId × Project) :=
  match TypeText.read text.toList with
  | .error fault => .error (.invalidType text (.malformed fault))
  | .ok parsed => internType names context text parsed p

def addType (names : Names DeclId) (context : DeclId) (add : Project → TypeId → Project)
    (p : Project) (text : String) : Except Problem Project := do
  let (type, p) ← resolveType names p context text
  return add p type

def resolveHead (names : Names DeclId) (p : Project) (pending : DeclId × DeclHead) :
    Except Problem Project := do
  let (id, head) := pending
  let p ← head.supertypes.foldlM (addType names id fun p type => p.addSupertype id type) p
  let p ← head.overrides.foldlM
    (fun p name => do return p.addOverride id (← find names .unknownDecl name)) p
  let p ← head.params.foldlM
    (fun p param => addType names id (fun p type => p.addParam id param.name type) p param.type) p
  let p ← head.type.toList.foldlM (addType names id fun p type => p.setType id type) p
  head.bounds.foldlM (addType names id fun p type => p.addBound id type) p

def resolveHeads : Except Problem Loader := do
  let project ← l.pending.foldlM (resolveHead l.decls) l.project
  return { l with project, pending := [] }

end Loader

def findFile (p : Project) (path : String) : Except Problem FileId :=
  match p.fileIds.find? fun file => p.filePath file == path with
  | some file => .ok file
  | none => .error (.unknownFile path)

def findDirectory (p : Project) (path : String) : Except Problem DirId :=
  match p.dirIds.find? fun dir => (p.directory dir).path == path with
  | some dir => .ok dir
  | none => .error (.unknownDirectory path)

def findDecl (p : Project) (name : String) : Except Problem DeclId :=
  match p.findDecl? name with
  | some id => .ok id
  | none => .error (.unknownDecl name)

def ReferenceEntry.flags (e : ReferenceEntry) : RefFlags where
  inImport := e.inImport
  inSupertypeList := e.inSupertypeList
  nonCode := e.nonCode

/-- Adds a reference. One that resolves to nothing within a declaration is plain code. -/
def Loader.addReference (l : Loader) (e : ReferenceEntry) : Except Problem Loader := do
  let target ← e.target.mapM l.findDecl
  let project ←
    match e.source, target with
    | some source, some target =>
      pure (l.project.addReferenceFrom (← l.findDecl source) target e.flags)
    | some source, none => pure (l.project.addUnresolved (← l.findDecl source) "")
    | none, target =>
      pure (l.project.addReference (← findFile l.project (e.file.getD "")) none target e.flags)
  return { l with project }

/-- The project that a manifest describes. -/
def load (m : Manifest) : Except Problem Project := do
  let l := m.sdks.foldl Loader.addSdk {}
  let l := m.libraries.foldl Loader.addLibrary l
  let l := m.modules.foldl Loader.addModule l
  let l ← m.modules.foldlM Loader.connect l
  let l ← m.directories.foldlM Loader.addDirectory l
  let l ← m.files.foldlM Loader.addFile l
  let l ← l.resolveHeads
  let l ← m.references.foldlM Loader.addReference l
  return l.project

end Relocation.Manifest
