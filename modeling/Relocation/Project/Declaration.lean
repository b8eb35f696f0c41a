import Relocation.Project.Id
import Relocation.Project.QualifiedName
set_option autoImplicit false

/-!
Declarations of a project and the containers they live in.

A declaration sits physically in a file or in another declaration. Seen from the language its
container is its owner or, at the top level, the fragment its file adds to a package.
-/

namespace Relocation

inductive DeclKind where
  | plainClass
  | interface
  | object
  | function
  | property
  | constructor
  | typeAlias
  | typeParameter
  deriving DecidableEq, Repr, Inhabited

namespace DeclKind

def isClassLike : DeclKind → Bool
  | plainClass | interface | object => true
  | _ => false

def isCallable : DeclKind → Bool
  | function | property | constructor => true
  | _ => false

def isFunctionLike : DeclKind → Bool
  | function | constructor => true
  | _ => false

def word : DeclKind → String
  | plainClass => "class"
  | interface => "interface"
  | object => "object"
  | function => "function"
  | property => "property"
  | constructor => "constructor"
  | typeAlias => "type alias"
  | typeParameter => "type parameter"

end DeclKind

/-- Declared visibility. The two package visibilities belong to the host language, or to a source
declaration looked at from host code. -/
inductive Visibility where
  | pub
  | internal
  | prot
  | priv
  | pkg
  | protPkg
  deriving DecidableEq, Repr, Inhabited

def Visibility.normalize : Visibility → Visibility
  | .pkg | .protPkg => .prot
  | other => other

inductive Modality where
  | final
  | inheritable
  | abstract
  | sealed
  deriving DecidableEq, Repr, Inhabited

/-- The language being refactored, or the host language that shares the project with it. -/
inductive Language where
  | source
  | host
  deriving DecidableEq, Repr, Inhabited

structure DeclFlags where
  companion : Bool := false
  expect : Bool := false
  actual : Bool := false
  /-- An expected declaration that platforms may leave out. -/
  optionalExpectation : Bool := false
  /-- Provided by the runtime of the language and by no source root. -/
  builtin : Bool := false
  primaryConstructor : Bool := false
  deriving DecidableEq, Repr, Inhabited

inductive Parent where
  | file (id : FileId)
  | decl (id : DeclId)
  deriving DecidableEq, Repr

instance : Inhabited Parent := ⟨.file ⟨0⟩⟩

/-- A package as seen from one module. `file` is the source file the fragment stands for; a
fragment that stands for a new file has none, so nothing shares a file with it. -/
structure PackageFragment where
  module : Option ModuleId
  name : QualifiedName
  file : Option FileId
  deriving DecidableEq, Repr

inductive Container where
  | decl (id : DeclId)
  | package (fragment : PackageFragment)
  deriving DecidableEq, Repr

def Container.asDecl? : Container → Option DeclId
  | .decl id => some id
  | .package _ => none

def Container.isPackage : Container → Bool
  | .decl _ => false
  | .package _ => true

structure ValueParam where
  name : String
  type : TypeId
  deriving DecidableEq, Repr

structure Declaration where
  name : String
  kind : DeclKind
  parent : Parent
  visibility : Visibility := .pub
  modality : Modality := .final
  language : Language := .source
  flags : DeclFlags := {}
  /-- Declared supertypes, a superclass first. -/
  supertypes : List TypeId := []
  overrides : List DeclId := []
  params : List ValueParam := []
  /-- The type of a property or the expansion of a type alias. -/
  type : Option TypeId := none
  /-- Upper bounds of a type parameter. -/
  bounds : List TypeId := []
  members : Array DeclId := #[]
  deriving Repr, Inhabited

namespace Declaration

/-- A type parameter is visible wherever it is in scope. -/
def hasVisibility (decl : Declaration) : Bool := decl.kind != .typeParameter

def isSealed (decl : Declaration) : Bool := decl.modality == .sealed

def isHost (decl : Declaration) : Bool := decl.language == .host

end Declaration

end Relocation
