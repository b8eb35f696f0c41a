import Relocation.Manifest.Decode
import Relocation.Manifest.Encode
import Relocation.Proofs.Json.Decoded
import Relocation.Proofs.Steps
set_option autoImplicit false

/-!
Manifests survive being written. Every entry is read back from what it is written as, as long as
its text does not nest deeper than a reader allows; a level of members takes two levels of that.
-/

namespace Relocation.Manifest

open Json

/-- Every value has a name, and no name stands for two values. -/
def Spelling.Faithful {α : Type} [DecidableEq α] (spelling : Spelling α) : Prop :=
  ∀ value, spelling.find? (fun entry => entry.1 == spelling.spell value) =
    some (spelling.spell value, value)

theorem faithful_platforms : Spelling.Faithful platforms := by
  intro value
  cases value <;> rfl

theorem faithful_sdkKinds : Spelling.Faithful sdkKinds := by
  intro value
  cases value <;> rfl

theorem faithful_declKinds : Spelling.Faithful declKinds := by
  intro value
  cases value <;> rfl

theorem faithful_visibilities : Spelling.Faithful visibilities := by
  intro value
  cases value <;> rfl

theorem faithful_modalities : Spelling.Faithful modalities := by
  intro value
  cases value <;> rfl

theorem faithful_languages : Spelling.Faithful languages := by
  intro value
  cases value <;> rfl

theorem Spelling.Faithful.spelled_reading {α : Type} [DecidableEq α] {spelling : Spelling α}
    (faithful : spelling.Faithful) (depth : Nat) (value : α) :
    spelled depth spelling (Value.string (spelling.spell value)).reading = .ok value := by
  apply choice_string
  rw [List.find?_map]
  exact congrArg (Option.map _) (faithful value)

@[simp]
theorem option_stringValue (text : Option String) :
    option string (stringValue text).reading = .ok text := by
  cases text with
  | none => exact option_null string
  | some text => exact option_some nofun (string_reading text)

theorem Spelling.Faithful.option_spelledValue {α : Type} [DecidableEq α] {spelling : Spelling α}
    (faithful : spelling.Faithful) (depth : Nat) (value : Option α) :
    option (spelled depth spelling) (spelledValue spelling value).reading = .ok value := by
  cases value with
  | none => exact option_null _
  | some value => exact option_some nofun (faithful.spelled_reading depth value)

theorem names_reading {depth : Nat} (room : depth ≠ 0) (names : List String) :
    list depth string (namesValue names).reading = .ok names :=
  list_reading room fun name _ => string_reading name

@[simp]
theorem decode_required {α β : Type} (name : String) (decode : Reading → Result β)
    (set : α → β → α) (reading : Reading) (record : α) :
    (required name decode set).decode reading record = (decode reading).map (set record) := by
  show (decode reading).bind _ = _
  cases decode reading <;> rfl

@[simp]
theorem decode_optional {α β : Type} (name : String) (decode : Reading → Result β)
    (set : α → β → α) (reading : Reading) (record : α) :
    (optional name decode set).decode reading record = (decode reading).map (set record) := by
  show (decode reading).bind _ = _
  cases decode reading <;> rfl

@[simp]
theorem decode_onHead (field : RecordField DeclHead) (reading : Reading) (entry : DeclEntry) :
    (onHead field).decode reading entry =
      (field.decode reading entry.head).map fun head => .node head entry.members := by
  show (field.decode reading entry.head).bind _ = _
  cases field.decode reading entry.head <;> rfl

section Entries

variable {depth : Nat} (room : depth ≠ 0)
include room

theorem settingsOfReading_toValue (settings : LanguageSettings) :
    settingsOfReading depth (Value.object [("sealedInheritorsInSamePackage",
      .bool settings.sealedInheritorsInSamePackage)]).reading = .ok settings := by
  refine record_reading room ["sealedInheritorsInSamePackage"] rfl (by decide)
    [.bool settings.sealedInheritorsInSamePackage] (by simp) ?_
  simp [Except.bind, Except.map]

theorem SdkEntry.ofReading_toValue (entry : SdkEntry) :
    SdkEntry.ofReading depth entry.toValue.reading = .ok entry := by
  refine record_reading room ["name", "kind"] rfl (by decide)
    [.string entry.name, .string (sdkKinds.spell entry.kind)] (by simp) ?_
  simp [Except.bind, Except.map, faithful_sdkKinds.spelled_reading]

theorem LibraryEntry.ofReading_toValue (entry : LibraryEntry) :
    LibraryEntry.ofReading depth entry.toValue.reading = .ok entry := by
  refine record_reading room ["name", "platform"] rfl (by decide)
    [.string entry.name, .string (platforms.spell entry.platform)] (by simp) ?_
  simp [Except.bind, Except.map, faithful_platforms.spelled_reading]

theorem ParamEntry.ofReading_toValue (entry : ParamEntry) :
    ParamEntry.ofReading depth entry.toValue.reading = .ok entry := by
  refine record_reading room ["name", "type"] rfl (by decide)
    [.string entry.name, .string entry.type] (by simp) ?_
  simp [Except.bind, Except.map]

theorem DirectoryEntry.ofReading_toValue (entry : DirectoryEntry) :
    DirectoryEntry.ofReading depth entry.toValue.reading = .ok entry := by
  refine record_reading room ["path", "package", "module", "test", "library", "sdk"] rfl
    (by decide)
    [.string entry.path, .string entry.package, stringValue entry.module, .bool entry.test,
      stringValue entry.library, stringValue entry.sdk] (by simp) ?_
  simp [Except.bind, Except.map]

theorem ReferenceEntry.ofReading_toValue (entry : ReferenceEntry) :
    ReferenceEntry.ofReading depth entry.toValue.reading = .ok entry := by
  refine record_reading room ["from", "file", "to", "inImport", "inSupertypeList", "nonCode"] rfl
    (by decide)
    [stringValue entry.source, stringValue entry.file, stringValue entry.target,
      .bool entry.inImport, .bool entry.inSupertypeList, .bool entry.nonCode] (by simp) ?_
  simp [Except.bind, Except.map]

end Entries

theorem ModuleEntry.ofReading_toValue {depth : Nat} (room : 1 < depth) (entry : ModuleEntry) :
    ModuleEntry.ofReading depth entry.toValue.reading = .ok entry := by
  refine record_reading (Nat.ne_zero_of_lt room)
    ["name", "platform", "dependencies", "libraries", "sdks", "implements"] rfl (by decide)
    [.string entry.name, .string (platforms.spell entry.platform), namesValue entry.dependencies,
      namesValue entry.libraries, namesValue entry.sdks, namesValue entry.implements] (by simp) ?_
  have names := names_reading (Nat.sub_ne_zero_of_lt room)
  simp [Except.bind, Except.map, faithful_platforms.spelled_reading, names]

theorem directoryTarget_reading {depth : Nat} (room : depth ≠ 0) (path : String)
    (package : Option String) :
    directoryTarget depth
        (Value.object [("path", .string path), ("package", stringValue package)]).reading =
      .ok (.directory path package) := by
  refine bind_eq_ok.mpr ⟨{ directory := path, package }, ?_, rfl⟩
  refine record_reading room ["path", "package"] rfl (by decide)
    [.string path, stringValue package] (by simp) ?_
  simp [Except.bind, Except.map]

theorem deferredTarget_reading {depth : Nat} (room : depth ≠ 0) (path : String)
    (package : Option String) (fileName : String) :
    deferredTarget depth
        (Value.object [("directory", .string path), ("package", stringValue package),
          ("fileName", .string fileName)]).reading =
      .ok (.deferredFile path package fileName) := by
  refine bind_eq_ok.mpr ⟨{ directory := path, package, fileName }, ?_, rfl⟩
  refine record_reading room ["directory", "package", "fileName"] rfl (by decide)
    [.string path, stringValue package, .string fileName] (by simp) ?_
  simp [Except.bind, Except.map]

theorem TargetEntry.ofReading_toValue {depth : Nat} (room : 1 < depth) (target : TargetEntry) :
    TargetEntry.ofReading depth target.toValue.reading = .ok target := by
  have outer : depth ≠ 0 := Nat.ne_zero_of_lt room
  have inner : depth - 1 ≠ 0 := Nat.sub_ne_zero_of_lt room
  cases target with
  | existingDecl name => exact choice_object outer rfl (by rw [string_reading]; rfl)
  | existingFile path => exact choice_object outer rfl (by rw [string_reading]; rfl)
  | directory path package =>
    exact choice_object outer rfl (directoryTarget_reading inner path package)
  | deferredFile path package fileName =>
    exact choice_object outer rfl (deferredTarget_reading inner path package fileName)

theorem MoveEntry.ofReading_toValue {depth : Nat} (room : 2 < depth) (entry : MoveEntry) :
    MoveEntry.ofReading depth entry.toValue.reading = .ok entry := by
  refine record_reading (Nat.ne_zero_of_lt room) ["declarations", "files", "target"] rfl
    (by decide)
    [namesValue entry.declarations, namesValue entry.files, entry.target.toValue] (by simp) ?_
  have names := names_reading (Nat.sub_ne_zero_of_lt (Nat.lt_of_succ_lt room))
  have inner : 1 < depth - 1 := by omega
  have target := TargetEntry.ofReading_toValue inner entry.target
  simp [Except.bind, Except.map, names, target]

mutual

def DeclEntry.depth : DeclEntry → Nat
  | .node _ members => levelsOf members

def levelsOf : List DeclEntry → Nat
  | [] => 0
  | entry :: rest => max (entry.depth + 1) (levelsOf rest)

end

def headNames : List String :=
  ["id", "kind", "name", "visibility", "modality", "language", "companion", "expect", "actual",
    "optionalExpectation", "builtin", "primary", "supertypes", "overrides", "params", "type",
    "bounds"]

theorem declRecord_reading {depth : Nat} (room : 2 < depth) (head : DeclHead)
    {decode : Reading → Result (List DeclEntry)} {written : Value} {members : List DeclEntry}
    (decoded : decode written.reading = .ok members) :
    declRecord depth decode (Value.object (head.toMembers ++ [("members", written)])).reading =
      .ok (.node head members) := by
  refine record_reading (Nat.ne_zero_of_lt room) (headNames ++ ["members"]) rfl (by decide)
    (head.toMembers.map Prod.snd ++ [written]) (by simp [DeclHead.toMembers, DeclHead.fields]) ?_
  have names := names_reading (Nat.sub_ne_zero_of_lt (Nat.lt_of_succ_lt room))
  have params : list (depth - 1) (ParamEntry.ofReading (depth - 2))
      (Value.array (head.params.map ParamEntry.toValue)).reading = .ok head.params :=
    list_reading (Nat.sub_ne_zero_of_lt (Nat.lt_of_succ_lt room)) fun param _ =>
      ParamEntry.ofReading_toValue (Nat.sub_ne_zero_of_lt room) param
  simp [DeclHead.toMembers, DeclHead.fields, flag, Except.bind, Except.map, names, params, decoded,
    faithful_declKinds.spelled_reading, faithful_visibilities.option_spelledValue,
    faithful_modalities.option_spelledValue, faithful_languages.option_spelledValue,
    DeclEntry.head, DeclEntry.members]

theorem declValues_eq_map (entries : List DeclEntry) :
    declValues entries = entries.map DeclEntry.toValue := by
  induction entries with
  | nil => rfl
  | cons entry rest inductionHypothesis =>
    rw [declValues, inductionHypothesis, List.map_cons]

theorem depth_lt_levelsOf {entries : List DeclEntry} {entry : DeclEntry}
    (listed : entry ∈ entries) : entry.depth < levelsOf entries := by
  induction entries with
  | nil => cases listed
  | cons first rest inductionHypothesis =>
    rw [levelsOf]
    rcases List.mem_cons.mp listed with rfl | listed
    · exact lt_max_of_lt_left (Nat.lt_succ_self _)
    · exact lt_max_of_lt_right (inductionHypothesis listed)

/-- A declaration takes one level, its parameters two more, and each level of members two. -/
theorem DeclEntry.ofReading_toValue {depth : Nat} {entry : DeclEntry}
    (room : 2 * entry.depth + 2 < depth) :
    DeclEntry.ofReading depth entry.toValue.reading = .ok entry := by
  induction depth using DeclEntry.ofReading.induct generalizing entry with
  | case1 => omega
  | case2 => omega
  | case3 depth inductionHypothesis =>
    obtain ⟨head, members⟩ := entry
    rw [DeclEntry.depth] at room
    rw [DeclEntry.toValue, declValues_eq_map, DeclEntry.ofReading]
    refine declRecord_reading (by omega) head (list_reading (by omega) fun member listed => ?_)
    have below := depth_lt_levelsOf listed
    exact inductionHypothesis (by omega)

theorem FileEntry.ofReading_toValue {levels depth : Nat} (room : 2 * levels + 4 < depth)
    {entry : FileEntry} (nested : ∀ decl ∈ entry.declarations, decl.depth ≤ levels) :
    FileEntry.ofReading depth entry.toValue.reading = .ok entry := by
  have decls : list (depth - 1) (DeclEntry.ofReading (depth - 2))
      (Value.array (declValues entry.declarations)).reading = .ok entry.declarations := by
    rw [declValues_eq_map]
    refine list_reading (by omega) fun decl listed => ?_
    have below := nested decl listed
    exact DeclEntry.ofReading_toValue (by omega)
  refine record_reading (Nat.ne_zero_of_lt room) ["directory", "name", "package", "declarations"]
    rfl (by decide)
    [.string entry.directory, .string entry.name, stringValue entry.package,
      .array (declValues entry.declarations)] (by simp) ?_
  simp [Except.bind, Except.map, decls]

/-- No declaration of a file has more than `levels` levels of members below it. -/
def MembersWithin (m : Manifest) (levels : Nat) : Prop :=
  ∀ file ∈ m.files, ∀ entry ∈ file.declarations, entry.depth ≤ levels

instance (m : Manifest) (levels : Nat) : Decidable (m.MembersWithin levels) := by
  unfold MembersWithin
  infer_instance

def manifestNames : List String :=
  ["settings", "sdks", "libraries", "modules", "directories", "files", "references", "move"]

def fixedValues (m : Manifest) : List Value :=
  [.object [("sealedInheritorsInSamePackage", .bool m.settings.sealedInheritorsInSamePackage)],
    .array (m.sdks.map SdkEntry.toValue), .array (m.libraries.map LibraryEntry.toValue),
    .array (m.modules.map ModuleEntry.toValue), .array (m.directories.map DirectoryEntry.toValue),
    .array (m.files.map FileEntry.toValue), .array (m.references.map ReferenceEntry.toValue)]

theorem toValue_eq (m : Manifest) :
    m.toValue =
      .object (manifestNames.zip (m.fixedValues ++ m.move.toList.map MoveEntry.toValue)) := by
  unfold toValue
  cases m.move <;> rfl

/-- The files with their declarations nest deepest: six levels, and two more for each level of
members. -/
theorem ofReading_toValue {levels depth : Nat} (room : 2 * levels + 6 < depth) {m : Manifest}
    (nested : m.MembersWithin levels) : ofReading depth m.toValue.reading = .ok m := by
  have inner : depth - 1 ≠ 0 := by omega
  have within : depth - 2 ≠ 0 := by omega
  have settings := settingsOfReading_toValue inner m.settings
  have sdks := list_reading inner fun sdk (_ : sdk ∈ m.sdks) =>
    SdkEntry.ofReading_toValue within sdk
  have libraries := list_reading inner fun library (_ : library ∈ m.libraries) =>
    LibraryEntry.ofReading_toValue within library
  have modules := list_reading inner fun module (_ : module ∈ m.modules) =>
    ModuleEntry.ofReading_toValue (show 1 < depth - 2 by omega) module
  have directories := list_reading inner fun directory (_ : directory ∈ m.directories) =>
    DirectoryEntry.ofReading_toValue within directory
  have files := list_reading inner fun file (listed : file ∈ m.files) =>
    FileEntry.ofReading_toValue (show 2 * levels + 4 < depth - 2 by omega) (nested file listed)
  have references := list_reading inner fun reference (_ : reference ∈ m.references) =>
    ReferenceEntry.ofReading_toValue within reference
  have moved (entry : MoveEntry) : option (MoveEntry.ofReading (depth - 1)) entry.toValue.reading =
      .ok (some entry) :=
    option_some nofun (MoveEntry.ofReading_toValue (show 2 < depth - 1 by omega) entry)
  rw [toValue_eq]
  refine record_reading (Nat.ne_zero_of_lt room) manifestNames rfl (by decide) _ ?_ ?_
  · -- Every field of a manifest is optional.
    intro field left
    have listed := List.mem_of_mem_drop left
    simp only [List.mem_cons, List.not_mem_nil, or_false] at listed
    rcases listed with rfl | rfl | rfl | rfl | rfl | rfl | rfl | rfl <;> rfl
  simp only [fixedValues, List.cons_append, List.nil_append, fillFields_cons, decode_optional,
    settings, sdks, libraries, modules, directories, files, references, Except.map, Except.bind]
  cases move : m.move with
  | none =>
    have whole : m = { m with move := none } := by rw [← move]
    rw [whole]
    rfl
  | some entry =>
    have whole : m = { m with move := some entry } := by rw [← move]
    rw [whole]
    simp only [Option.toList_some, List.map_cons, fillFields_cons, decode_optional, moved]
    rfl

/-- A manifest whose members nest no more than 60 levels deep, which is all that the limit of the
reader leaves room for, is read back from the text that is written for it, whatever its entries
hold. -/
theorem ofJson_toCompact {m : Manifest} (nested : m.MembersWithin 60) :
    ofJson m.toValue.toCompact = .ok m := by
  have room : 2 * 60 + 6 < depthLimit := by decide
  rw [ofJson, decode, read_toCompact, ofReading_toValue room nested]
  rfl

/-- A class with a constructor and a companion, in a file whose name needs escapes, and a request to
move it. -/
def sketch : Manifest where
  settings := { sealedInheritorsInSamePackage := false }
  modules := [{ name := "core", platform := .jvm, dependencies := ["base"] }]
  directories := [{ path := "a\\b", module := some "core", test := true }]
  files := [{
    directory := "a\\b", name := "\"Sketch\"\n\x1f.kt"
    declarations := [.node { kind := .plainClass, name := "Sketch", visibility := some .priv } [
      .node { kind := .constructor, params := [⟨"size", "Any?"⟩] } [],
      .node { kind := .object, name := "Companion", flags := { companion := true } } [
        .node { kind := .property, name := "größe", type := some "Sketch" } []]]] }]
  references := [{ source := some "Sketch", nonCode := true }]
  move := some {
    declarations := ["Sketch"], target := .deferredFile "a\\b" (some "") "Other.kt" }

theorem ofJson_toCompact_sketch :
    sketch.MembersWithin 60 ∧ ofJson sketch.toValue.toCompact = .ok sketch :=
  ⟨by decide, ofJson_toCompact (by decide)⟩

end Relocation.Manifest
