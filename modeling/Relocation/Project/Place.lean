import Relocation.Project.Basic
set_option autoImplicit false

/-!
Where an element of a project lies: its file, module and package, the elements around it, its
semantic containers and its qualified name.

Every walk outwards is cut off after `chainLimit` steps. A declaration nested deeper than that has
no file, and its qualified name starts below the package.
-/

namespace Relocation

def chainLimit : Nat := 256

namespace Project

variable (p : Project)

/-- The file reached from a declaration by looking at no more than `steps` parents. -/
def fileWithin : Nat → DeclId → Option FileId
  | 0, _ => none
  | steps + 1, id =>
    match (p.decl id).parent with
    | .file file => some file
    | .decl owner => fileWithin steps owner

def fileOf? (id : DeclId) : Option FileId := p.fileWithin chainLimit id

def fileOfElement? : Element → Option FileId
  | .decl id => p.fileOf? id
  | .reference id => some (p.reference id).file
  | .file id => some id

def around? : Element → Option Element
  | .decl id =>
    match (p.decl id).parent with
    | .file file => some (.file file)
    | .decl owner => some (.decl owner)
  | .reference id =>
    match (p.reference id).owner with
    | some owner => some (.decl owner)
    | none => some (.file (p.reference id).file)
  | .file _ => none

/-- `ancestor` is the element itself or is reached from it in no more than `steps` steps. -/
def liesWithin (ancestor : Element) : Nat → Element → Bool
  | 0, element => element == ancestor
  | steps + 1, element =>
    element == ancestor ||
      match p.around? element with
      | some outer => liesWithin ancestor steps outer
      | none => false

def isAncestor (ancestor element : Element) : Bool := p.liesWithin ancestor chainLimit element

def referencesWithin (id : DeclId) : List RefId :=
  p.refIds.filter fun ref => p.isAncestor (.decl id) (.reference ref)

def filePath (id : FileId) : String :=
  let file := p.file id
  let path := (p.directory file.directory).path
  if path.isEmpty then file.name
  else
    let trimmed := (path.toList.reverse.dropWhile (· == '/')).reverse
    String.ofList trimmed ++ "/" ++ file.name

def rootOfFile (id : FileId) : SourceRoot := (p.directory (p.file id).directory).root

def rootOf? (id : DeclId) : Option SourceRoot := (p.fileOf? id).map p.rootOfFile

def moduleOfFile? (id : FileId) : Option ModuleId := (p.rootOfFile id).module?

def moduleOf? (id : DeclId) : Option ModuleId := (p.rootOf? id).bind SourceRoot.module?

def moduleOfElement? (element : Element) : Option ModuleId :=
  (p.fileOfElement? element).bind p.moduleOfFile?

def isTestFile (id : FileId) : Bool := (p.rootOfFile id).isTest

def isInProject (id : DeclId) : Bool := (p.rootOf? id).any SourceRoot.isProject

def packageOfFile (id : FileId) : QualifiedName := (p.file id).package

def packageOf? (id : DeclId) : Option QualifiedName := (p.fileOf? id).map p.packageOfFile

def fragmentOfFile (id : FileId) : PackageFragment where
  module := p.moduleOfFile? id
  name := p.packageOfFile id
  file := some id

def container (id : DeclId) : Container :=
  match (p.decl id).parent with
  | .decl owner => .decl owner
  | .file file => .package (p.fragmentOfFile file)

/-- A container followed by the containers around it, no more than `count` in all. -/
def containersFrom : Nat → Container → List Container
  | 0, _ => []
  | count + 1, container =>
    container ::
      match container with
      | .decl owner => containersFrom count (p.container owner)
      | .package _ => []

def containers (id : DeclId) : List Container := p.containersFrom chainLimit (p.container id)

def owners (id : DeclId) : List DeclId := (p.containers id).filterMap Container.asDecl?

def containingClass? (id : DeclId) : Option DeclId :=
  (p.owners id).find? fun owner => (p.decl owner).kind.isClassLike

/-- The package at the end of a chain of containers; the root if the chain was cut off. -/
def packageAtEnd (chain : List Container) : QualifiedName :=
  match chain.getLast? with
  | some (.package fragment) => fragment.name
  | _ => .root

def qualifiedName (id : DeclId) : QualifiedName :=
  (id :: p.owners id).foldr (fun decl name => name.child (p.decl decl).name)
    (packageAtEnd (p.containers id))

def nameOfContainer : Container → QualifiedName
  | .decl id => p.qualifiedName id
  | .package fragment => fragment.name

def findDecl? (name : String) : Option DeclId :=
  p.declIds.find? fun id => (p.qualifiedName id).text == name

/-- The declaration that an import directive names to get at `id`: the class for a constructor. -/
def importable (id : DeclId) : DeclId :=
  match (p.decl id).kind, (p.decl id).parent with
  | .constructor, .decl owner => owner
  | _, _ => id

/-- The name by which an import directive can name `id`, if there is one. Members are importable
only when they are classes or type aliases, or when their owner is an object. -/
def importableName? (id : DeclId) : Option QualifiedName :=
  let target := p.importable id
  let kind := (p.decl target).kind
  let reachable : Bool :=
    match p.container target with
    | .package _ => true
    | .decl owner => kind.isClassLike || kind == .typeAlias || (p.decl owner).kind == .object
  if kind != .typeParameter && reachable then some (p.qualifiedName target) else none

end Project

end Relocation
