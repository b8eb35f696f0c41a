import Relocation.Project.Id
import Relocation.Project.QualifiedName
set_option autoImplicit false

/-!
Where code comes from: modules with the libraries and SDKs attached to them, source roots, and the
directories and files below the roots.
-/

namespace Relocation

inductive Platform where
  | jvm
  | js
  | native
  /-- Code shared by several platforms. -/
  | common
  deriving DecidableEq, Repr, Inhabited

inductive SdkKind where
  /-- A JVM development kit, which modules for other platforms never see. -/
  | jdk
  | other
  deriving DecidableEq, Repr, Inhabited

structure Sdk where
  name : String
  kind : SdkKind
  deriving Repr, Inhabited

structure Library where
  name : String
  platform : Platform
  deriving Repr, Inhabited

structure Module where
  name : String
  platform : Platform
  dependencies : List ModuleId := []
  libraries : List LibraryId := []
  sdks : List SdkId := []
  /-- Common modules for which this module provides the actual declarations. -/
  implemented : List ModuleId := []
  deriving Repr, Inhabited

inductive SourceRoot where
  | module (id : ModuleId) (test : Bool)
  | library (id : LibraryId)
  | sdk (id : SdkId)
  deriving DecidableEq, Repr

instance : Inhabited SourceRoot := ⟨.module ⟨0⟩ false⟩

namespace SourceRoot

def module? : SourceRoot → Option ModuleId
  | module id _ => some id
  | _ => none

def isTest : SourceRoot → Bool
  | module _ test => test
  | _ => false

def isProject : SourceRoot → Bool
  | module _ _ => true
  | _ => false

end SourceRoot

structure Directory where
  path : String
  root : SourceRoot
  /-- The package that the position under the source root implies. -/
  package : QualifiedName
  deriving Repr, Inhabited

structure SourceFile where
  name : String
  directory : DirId
  package : QualifiedName
  declarations : Array DeclId := #[]
  deriving Repr, Inhabited

end Relocation
