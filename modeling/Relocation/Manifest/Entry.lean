import Relocation.Project.Declaration
import Relocation.Project.Root
set_option autoImplicit false

/-!
Manifests: the written description of a project, and of a move within it.

Entries name each other. Declarations go by qualified name, or by an `id` of their own where
qualified names are ambiguous; everything else goes by name or path.
-/

namespace Relocation

structure LanguageSettings where
  /-- Inheritors of a sealed class may live in other files of its package and module. -/
  sealedInheritorsInSamePackage : Bool := true
  deriving DecidableEq, Repr, Inhabited

namespace Manifest

structure SdkEntry where
  name : String
  kind : SdkKind
  deriving DecidableEq, Repr, Inhabited

structure LibraryEntry where
  name : String
  platform : Platform
  deriving DecidableEq, Repr, Inhabited

structure ModuleEntry where
  name : String
  platform : Platform
  dependencies : List String := []
  libraries : List String := []
  sdks : List String := []
  implements : List String := []
  deriving DecidableEq, Repr, Inhabited

structure DirectoryEntry where
  path : String
  package : String := ""
  module : Option String := none
  test : Bool := false
  library : Option String := none
  sdk : Option String := none
  deriving DecidableEq, Repr, Inhabited

structure ParamEntry where
  name : String
  type : String
  deriving DecidableEq, Repr, Inhabited

/-- What an entry says about a declaration itself, leaving out its members. -/
structure DeclHead where
  id : Option String := none
  kind : DeclKind
  /-- A constructor without a name takes the name of its class. -/
  name : String := ""
  visibility : Option Visibility := none
  modality : Option Modality := none
  language : Option Language := none
  flags : DeclFlags := {}
  supertypes : List String := []
  overrides : List String := []
  params : List ParamEntry := []
  type : Option String := none
  bounds : List String := []
  deriving DecidableEq, Repr, Inhabited

inductive DeclEntry where
  | node (head : DeclHead) (members : List DeclEntry)
  deriving Repr

instance : Inhabited DeclEntry := ⟨.node default []⟩

def DeclEntry.head : DeclEntry → DeclHead
  | node head _ => head

def DeclEntry.members : DeclEntry → List DeclEntry
  | node _ members => members

structure FileEntry where
  directory : String
  name : String
  package : Option String := none
  declarations : List DeclEntry := []
  deriving Repr, Inhabited

structure ReferenceEntry where
  /-- The declaration around the reference. -/
  source : Option String := none
  /-- The file of a reference outside all declarations. -/
  file : Option String := none
  target : Option String := none
  inImport : Bool := false
  inSupertypeList : Bool := false
  nonCode : Bool := false
  deriving DecidableEq, Repr, Inhabited

inductive TargetEntry where
  | existingDecl (name : String)
  | existingFile (path : String)
  | directory (path : String) (package : Option String)
  | deferredFile (directory : String) (package : Option String) (fileName : String)
  deriving DecidableEq, Repr

instance : Inhabited TargetEntry := ⟨.existingDecl ""⟩

structure MoveEntry where
  declarations : List String := []
  files : List String := []
  target : TargetEntry
  deriving DecidableEq, Repr, Inhabited

end Manifest

structure Manifest where
  settings : LanguageSettings := {}
  sdks : List Manifest.SdkEntry := []
  libraries : List Manifest.LibraryEntry := []
  modules : List Manifest.ModuleEntry := []
  directories : List Manifest.DirectoryEntry := []
  files : List Manifest.FileEntry := []
  references : List Manifest.ReferenceEntry := []
  move : Option Manifest.MoveEntry := none
  deriving Repr, Inhabited

end Relocation
