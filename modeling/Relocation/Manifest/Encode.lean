import Relocation.Json.Value
import Relocation.Manifest.Spelling
set_option autoImplicit false

/-!
Writing manifests as JSON. Every field is written, an absent option as `null`; only an absent move
is left out.
-/

namespace Relocation.Manifest

open Json

def stringValue (text : Option String) : Value :=
  match text with
  | some text => .string text
  | none => .null

def namesValue (names : List String) : Value := .array (names.map .string)

def spelledValue {α : Type} [DecidableEq α] (spelling : Spelling α) (value : Option α) : Value :=
  stringValue (value.map spelling.spell)

def SdkEntry.toValue (e : SdkEntry) : Value :=
  .object [("name", .string e.name), ("kind", .string (sdkKinds.spell e.kind))]

def LibraryEntry.toValue (e : LibraryEntry) : Value :=
  .object [("name", .string e.name), ("platform", .string (platforms.spell e.platform))]

def ModuleEntry.toValue (e : ModuleEntry) : Value :=
  .object [
    ("name", .string e.name),
    ("platform", .string (platforms.spell e.platform)),
    ("dependencies", namesValue e.dependencies),
    ("libraries", namesValue e.libraries),
    ("sdks", namesValue e.sdks),
    ("implements", namesValue e.implements)]

def DirectoryEntry.toValue (e : DirectoryEntry) : Value :=
  .object [
    ("path", .string e.path),
    ("package", .string e.package),
    ("module", stringValue e.module),
    ("test", .bool e.test),
    ("library", stringValue e.library),
    ("sdk", stringValue e.sdk)]

def ParamEntry.toValue (e : ParamEntry) : Value :=
  .object [("name", .string e.name), ("type", .string e.type)]

def DeclHead.toMembers (e : DeclHead) : List (String × Value) :=
  [("id", stringValue e.id),
    ("kind", .string (declKinds.spell e.kind)),
    ("name", .string e.name),
    ("visibility", spelledValue visibilities e.visibility),
    ("modality", spelledValue modalities e.modality),
    ("language", spelledValue languages e.language),
    ("companion", .bool e.flags.companion),
    ("expect", .bool e.flags.expect),
    ("actual", .bool e.flags.actual),
    ("optionalExpectation", .bool e.flags.optionalExpectation),
    ("builtin", .bool e.flags.builtin),
    ("primary", .bool e.flags.primaryConstructor),
    ("supertypes", namesValue e.supertypes),
    ("overrides", namesValue e.overrides),
    ("params", .array (e.params.map ParamEntry.toValue)),
    ("type", stringValue e.type),
    ("bounds", namesValue e.bounds)]

mutual

def DeclEntry.toValue : DeclEntry → Value
  | .node head members =>
    .object (head.toMembers ++ [("members", .array (declValues members))])

def declValues : List DeclEntry → List Value
  | [] => []
  | entry :: rest => entry.toValue :: declValues rest

end

def FileEntry.toValue (e : FileEntry) : Value :=
  .object [
    ("directory", .string e.directory),
    ("name", .string e.name),
    ("package", stringValue e.package),
    ("declarations", .array (declValues e.declarations))]

def ReferenceEntry.toValue (e : ReferenceEntry) : Value :=
  .object [
    ("from", stringValue e.source),
    ("file", stringValue e.file),
    ("to", stringValue e.target),
    ("inImport", .bool e.inImport),
    ("inSupertypeList", .bool e.inSupertypeList),
    ("nonCode", .bool e.nonCode)]

def TargetEntry.toValue : TargetEntry → Value
  | existingDecl name => .object [("existingDecl", .string name)]
  | existingFile path => .object [("existingFile", .string path)]
  | directory path package =>
    .object [("directory", .object [("path", .string path), ("package", stringValue package)])]
  | deferredFile path package fileName =>
    .object [("deferredFile", .object [
      ("directory", .string path),
      ("package", stringValue package),
      ("fileName", .string fileName)])]

def MoveEntry.toValue (e : MoveEntry) : Value :=
  .object [
    ("declarations", namesValue e.declarations),
    ("files", namesValue e.files),
    ("target", e.target.toValue)]

def toValue (m : Manifest) : Value :=
  .object ([
    ("settings", .object [
      ("sealedInheritorsInSamePackage", .bool m.settings.sealedInheritorsInSamePackage)]),
    ("sdks", .array (m.sdks.map SdkEntry.toValue)),
    ("libraries", .array (m.libraries.map LibraryEntry.toValue)),
    ("modules", .array (m.modules.map ModuleEntry.toValue)),
    ("directories", .array (m.directories.map DirectoryEntry.toValue)),
    ("files", .array (m.files.map FileEntry.toValue)),
    ("references", .array (m.references.map ReferenceEntry.toValue))] ++
    m.move.toList.map fun move => ("move", move.toValue))

end Relocation.Manifest
