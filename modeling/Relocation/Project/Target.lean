import Relocation.Project.Place
set_option autoImplicit false

/-!
Destinations of a move.
-/

namespace Relocation

inductive Target where
  /-- Into a declaration, which becomes the new owner. -/
  | decl (id : DeclId)
  | file (id : FileId)
  /-- Into a new file of a directory. -/
  | directory (id : DirId) (package : QualifiedName)
  /-- Into a file that does not exist yet. -/
  | newFile (directory : DirId) (package : QualifiedName) (name : String)
  deriving DecidableEq, Repr

inductive TargetLocation where
  | file (id : FileId)
  | directory (id : DirId)
  deriving DecidableEq, Repr

namespace TargetLocation

def root (p : Project) : TargetLocation → SourceRoot
  | file id => p.rootOfFile id
  | directory id => (p.directory id).root

def inDirectory (p : Project) : TargetLocation → DirId
  | file id => (p.file id).directory
  | directory id => id

end TargetLocation

namespace Target

def element? : Target → Option Element
  | decl id => some (.decl id)
  | file id => some (.file id)
  | _ => none

def location? (p : Project) : Target → Option TargetLocation
  | decl id => (p.fileOf? id).map .file
  | file id => some (.file id)
  | directory id _ | newFile id _ _ => some (.directory id)

def module? (p : Project) (target : Target) : Option ModuleId :=
  (target.location? p).bind fun location => (location.root p).module?

/-- The package that the moved declarations will belong to. -/
def package? (p : Project) : Target → Option QualifiedName
  | decl id => p.packageOf? id
  | file id => some (p.packageOfFile id)
  | directory _ package | newFile _ package _ => some package

/-- The container that the moved declarations will have. A new file is a fragment without a file,
and exists only in a module. -/
def container? (p : Project) : Target → Option Container
  | decl id => some (.decl id)
  | file id => some (.package (p.fragmentOfFile id))
  | directory id package | newFile id package _ =>
    (p.directory id).root.module?.map fun module => .package ⟨some module, package, none⟩

end Target

end Relocation
