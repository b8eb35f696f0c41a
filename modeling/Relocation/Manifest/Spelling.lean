import Relocation.Manifest.Entry
set_option autoImplicit false

/-!
How manifests spell kinds, visibilities and the like. A spelling is a list of values with their
names, used both for reading and for writing.
-/

namespace Relocation.Manifest

abbrev Spelling (α : Type) : Type := List (String × α)

def Spelling.spell {α : Type} [DecidableEq α] (spelling : Spelling α) (value : α) : String :=
  match spelling.find? fun entry => entry.2 == value with
  | some (name, _) => name
  | none => ""

def platforms : Spelling Platform :=
  [("jvm", .jvm), ("js", .js), ("native", .native), ("common", .common)]

def sdkKinds : Spelling SdkKind := [("jdk", .jdk), ("other", .other)]

def declKinds : Spelling DeclKind :=
  [("class", .plainClass), ("interface", .interface), ("object", .object),
    ("function", .function), ("property", .property), ("constructor", .constructor),
    ("typeAlias", .typeAlias), ("typeParameter", .typeParameter)]

def visibilities : Spelling Visibility :=
  [("public", .pub), ("internal", .internal), ("protected", .prot), ("private", .priv),
    ("package", .pkg), ("protectedAndPackage", .protPkg)]

def modalities : Spelling Modality :=
  [("final", .final), ("open", .inheritable), ("abstract", .abstract), ("sealed", .sealed)]

def languages : Spelling Language := [("source", .source), ("host", .host)]

end Relocation.Manifest
