import Relocation.Project.Place
set_option autoImplicit false

/-!
Building a project entry by entry.

Every operation that adds an entry gives it the next free identifier of its arena, which is the
size of the arena before the operation. Declarations are added below a parent that is already
there, so parents always have smaller identifiers than their members.
-/

namespace Relocation

namespace Project

variable (p : Project)

def nextSdk : SdkId := ⟨p.sdks.size⟩

def addSdk (name : String) (kind : SdkKind) : Project :=
  { p with sdks := p.sdks.push ⟨name, kind⟩ }

def nextLibrary : LibraryId := ⟨p.libraries.size⟩

def addLibrary (name : String) (platform : Platform) : Project :=
  { p with libraries := p.libraries.push ⟨name, platform⟩ }

def nextModule : ModuleId := ⟨p.modules.size⟩

def addModule (name : String) (platform : Platform) : Project :=
  { p with modules := p.modules.push { name, platform } }

def editModule (id : ModuleId) (edit : Module → Module) : Project :=
  { p with modules := p.modules.modify id.index edit }

/-- Lists a direct dependency once. -/
def addDependency (id dependency : ModuleId) : Project :=
  p.editModule id fun module =>
    if module.dependencies.contains dependency then module
    else { module with dependencies := module.dependencies ++ [dependency] }

def attachLibrary (id : ModuleId) (library : LibraryId) : Project :=
  p.editModule id fun module => { module with libraries := module.libraries ++ [library] }

def attachSdk (id : ModuleId) (sdk : SdkId) : Project :=
  p.editModule id fun module => { module with sdks := module.sdks ++ [sdk] }

def addImplemented (id common : ModuleId) : Project :=
  p.editModule id fun module => { module with implemented := module.implemented ++ [common] }

def nextDir : DirId := ⟨p.directories.size⟩

def addDirectory (path : String) (root : SourceRoot) (package : QualifiedName) : Project :=
  { p with directories := p.directories.push ⟨path, root, package⟩ }

def nextFile : FileId := ⟨p.files.size⟩

/-- A file without a package of its own belongs to the package of its directory. -/
def addFile (directory : DirId) (name : String) (package : Option QualifiedName) : Project :=
  let package := package.getD (p.directory directory).package
  { p with files := p.files.push { name, directory, package } }

def nextDecl : DeclId := ⟨p.decls.size⟩

def editDecl (id : DeclId) (edit : Declaration → Declaration) : Project :=
  { p with decls := p.decls.modify id.index edit }

def addDecl (decl : Declaration) : Project :=
  let id := p.nextDecl
  let p :=
    match decl.parent with
    | .file file =>
      { p with
        files := p.files.modify file.index fun file =>
          { file with declarations := file.declarations.push id } }
    | .decl owner =>
      p.editDecl owner fun owner => { owner with members := owner.members.push id }
  { p with decls := p.decls.push decl }

def addSupertype (id : DeclId) (type : TypeId) : Project :=
  p.editDecl id fun decl => { decl with supertypes := decl.supertypes ++ [type] }

def addOverride (id overridden : DeclId) : Project :=
  p.editDecl id fun decl => { decl with overrides := decl.overrides ++ [overridden] }

def addParam (id : DeclId) (name : String) (type : TypeId) : Project :=
  p.editDecl id fun decl => { decl with params := decl.params ++ [⟨name, type⟩] }

def addBound (id : DeclId) (type : TypeId) : Project :=
  p.editDecl id fun decl => { decl with bounds := decl.bounds ++ [type] }

def setType (id : DeclId) (type : TypeId) : Project :=
  p.editDecl id fun decl => { decl with type := some type }

def withTypes (take : TypeTable → TypeId × TypeTable) : TypeId × Project :=
  let (id, types) := take p.types
  (id, { p with types })

def internType (shape : TypeShape) : TypeId × Project := p.withTypes fun t => t.intern shape

def classType (decl : DeclId) : TypeId × Project := p.withTypes fun t => t.classType decl

def paramType (decl : DeclId) : TypeId × Project := p.withTypes fun t => t.paramType decl

def nullableType (type : TypeId) : TypeId × Project := p.withTypes fun t => t.nullable type

def nextRef : RefId := ⟨p.references.size⟩

/-- Adds a reference, which carries the name of its target and lies after all earlier ones. -/
def addReference (file : FileId) (owner target : Option DeclId) (flags : RefFlags) : Project :=
  let text := (target.map fun target => (p.decl target).name).getD ""
  let offset := p.references.size + 1
  { p with references := p.references.push { file, owner, target, text, offset, flags } }

def lineage (id : DeclId) : List DeclId :=
  id :: (p.containersFrom p.decls.size (p.container id)).filterMap Container.asDecl?

def homeFile (id : DeclId) : FileId := (p.fileWithin p.decls.size id).getD default

def addReferenceFrom (owner target : DeclId) (flags : RefFlags) : Project :=
  p.addReference (p.homeFile owner) (some owner) (some target) flags

def addUnresolved (owner : DeclId) (text : String) : Project :=
  let id := p.nextRef
  let p := p.addReference (p.homeFile owner) (some owner) none {}
  { p with references := p.references.modify id.index fun ref => { ref with text } }

end Project

end Relocation
