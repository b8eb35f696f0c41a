import Mathlib.Data.List.Find
import Relocation.Manifest.Move
import Relocation.Proofs.Manifest.Loaded
set_option autoImplicit false

/-!
How keys and paths address declarations and directories, in a manifest and in a request to move.

Within a manifest a key leads to the last declaration that has it as its `id`, or else to the first
that has it as its qualified name. A request knows of no ids and takes the first of that name. A file
goes to the last directory of its path, a request to the first. So the two agree as long as keys are
no ids and paths are not repeated.
-/

namespace Relocation

namespace Manifest

variable (m : Manifest) (p : Project)

def named (key : String) : Option DeclId := (m.withId key).getLast?.or (p.findDecl? key)

/-- Whether a declaration has a key as its `id` or as its qualified name. -/
def Placed.goesBy (placed : Placed) (key : String) : Bool :=
  placed.head.id == some key || (p.qualifiedName placed.id).text == key

def firstAddressed (key : String) : Option DeclId :=
  (m.outline.find? fun placed => placed.goesBy p key).map Placed.id

def TargetEntry.Finds (p : Project) : TargetEntry → Target → Prop
  | .existingDecl key, target => ∃ id, p.findDecl? key = some id ∧ target = .decl id
  | .existingFile path, target =>
    ∃ file, (p.fileIds.find? fun file => p.filePath file == path) = some file ∧
      target = .file file
  | .directory path package, target =>
    ∃ dir, (p.dirsAt path).head? = some dir ∧ target = .directory dir (packageOr p dir package)
  | .deferredFile path package name, target =>
    ∃ dir, (p.dirsAt path).head? = some dir ∧ target = .newFile dir (packageOr p dir package) name

def MoveEntry.Finds (p : Project) (e : MoveEntry) (elements : List Element) (target : Target) : Prop :=
  ∃ decls files, elements = decls.map .decl ++ files.map .file ∧
    List.Forall₂ (fun key id => p.findDecl? key = some id) e.declarations decls ∧
    List.Forall₂ (fun path file => (p.fileIds.find? fun file => p.filePath file == path) = some file)
      e.files files ∧
    e.target.Finds p target

variable {m p}

theorem findDecl_eq_ok {key : String} {id : DeclId} :
    findDecl p key = .ok id ↔ p.findDecl? key = some id := by
  unfold findDecl
  cases p.findDecl? key with
  | none => exact ⟨nofun, nofun⟩
  | some other => simp

theorem findDirectory_eq_ok {path : String} {dir : DirId} :
    findDirectory p path = .ok dir ↔ (p.dirsAt path).head? = some dir := by
  unfold findDirectory Project.dirsAt
  rw [List.head?_filter]
  cases p.dirIds.find? fun dir => (p.directory dir).path == path with
  | none => exact ⟨nofun, nofun⟩
  | some other => simp

theorem findFile_eq_ok {path : String} {file : FileId} :
    findFile p path = .ok file ↔ (p.fileIds.find? fun file => p.filePath file == path) = some file := by
  unfold findFile
  cases p.fileIds.find? fun file => p.filePath file == path with
  | none => exact ⟨nofun, nofun⟩
  | some other => simp

theorem mapM_eq_ok {Key Item Fault : Type} {find : Key → Except Fault Item} {keys : List Key}
    {items : List Item} :
    keys.mapM find = .ok items ↔ List.Forall₂ (fun key item => find key = .ok item) keys items := by
  induction keys generalizing items with
  | nil =>
    rw [List.forall₂_nil_left_iff]
    exact ⟨fun done => (Except.ok.inj done).symm, fun none => none ▸ rfl⟩
  | cons key rest inductionHypothesis =>
    rw [List.mapM_cons, bind_eq_ok, List.forall₂_cons_left_iff]
    constructor
    · rintro ⟨item, found, returned⟩
      obtain ⟨others, further, done⟩ := bind_eq_ok.mp returned
      cases done
      exact ⟨item, others, found, inductionHypothesis.mp further, rfl⟩
    · rintro ⟨item, others, found, further, rfl⟩
      exact ⟨item, found, bind_eq_ok.mpr ⟨others, inductionHypothesis.mpr further, rfl⟩⟩

theorem TargetEntry.resolve_eq_ok {e : TargetEntry} {target : Target} :
    e.resolve p = .ok target ↔ e.Finds p target := by
  cases e with
  | existingDecl key => simp only [resolve, Finds, bind_pure_eq_ok, findDecl_eq_ok]
  | existingFile path => simp only [resolve, Finds, bind_pure_eq_ok, findFile_eq_ok]
  | directory path package => simp only [resolve, Finds, bind_pure_eq_ok, findDirectory_eq_ok]
  | deferredFile path package name =>
    simp only [resolve, Finds, bind_pure_eq_ok, findDirectory_eq_ok]

/-- A request takes the first declaration of a name and the first directory of a path, and it fails
only if there is none. -/
theorem MoveEntry.resolve_eq_ok {e : MoveEntry} {elements : List Element} {target : Target} :
    e.resolve p = .ok (elements, target) ↔ e.Finds p elements target := by
  simp only [resolve, Finds, bind_eq_ok, mapM_eq_ok, findDecl_eq_ok, findFile_eq_ok,
    TargetEntry.resolve_eq_ok]
  constructor
  · rintro ⟨decls, declsFound, files, filesFound, place, placeFound, done⟩
    cases done
    exact ⟨decls, files, rfl, declsFound, filesFound, placeFound⟩
  · rintro ⟨decls, files, rfl, declsFound, filesFound, placeFound⟩
    exact ⟨decls, declsFound, files, filesFound, target, placeFound, rfl⟩

theorem mem_withId {key : String} {id : DeclId} :
    id ∈ m.withId key ↔ ∃ placed ∈ m.outline, placed.head.id = some key ∧ placed.id = id := by
  simp [withId, holders, and_assoc]

namespace Loaded

variable {l : Loader} (loaded : Loaded m l p)
include loaded

theorem declNamed_eq : l.declNamed = m.named p := by
  funext key
  exact loaded.outlined.names p loaded.grown loaded.refines.declIds key

theorem dirAt_eq (path : String) : l.dirAt path = (p.dirsAt path).getLast? := by
  rw [dirsAt_of_same loaded.refines.directories]
  exact loaded.outlined.directories path

theorem findDecl?_eq (key : String) :
    p.findDecl? key = (m.outline.find? fun placed =>
      (p.qualifiedName placed.id).text == key).map Placed.id := by
  rw [Project.findDecl?, loaded.declIds, List.find?_map]
  rfl

/-- A key that is nobody's `id` addresses the first declaration of that name. -/
theorem firstAddressed_of_no_id {key : String} (noId : m.withId key = []) :
    m.firstAddressed p key = p.findDecl? key := by
  rw [loaded.findDecl?_eq, firstAddressed]
  congr 1
  apply List.find?_congr
  intro placed listed
  have other : placed.head.id ≠ some key := by
    intro same
    have holder := mem_withId.mpr ⟨placed, listed, same, rfl⟩
    rw [noId] at holder
    cases holder
  simp [Placed.goesBy, other]

theorem named_eq_firstAddressed {key : String}
    (single : ∀ one ∈ m.outline, ∀ other ∈ m.outline, one.goesBy p key = true →
      other.goesBy p key = true → one.id = other.id) : m.named p key = m.firstAddressed p key := by
  cases last : (m.withId key).getLast? with
  | none =>
    have noId := List.getLast?_eq_none_iff.mp last
    rw [loaded.firstAddressed_of_no_id noId, named, last, Option.none_or]
  | some id =>
    obtain ⟨placed, listed, has, rfl⟩ := mem_withId.mp (List.mem_of_getLast? last)
    have goes : placed.goesBy p key = true := by simp [Placed.goesBy, has]
    cases found : m.outline.find? fun placed => placed.goesBy p key with
    | none => exact absurd goes (List.find?_eq_none.mp found placed listed)
    | some first =>
      have firstGoes := List.find?_some found
      have same := single first (List.mem_of_find?_eq_some found) placed listed firstGoes goes
      rw [named, last, Option.some_or, firstAddressed, found, Option.map_some, same]

end Loaded

/-- How the declarations, references and files of a project have been found by their names, and how
a request finds them. -/
structure Addressed (m : Manifest) (p : Project) : Prop where
  overrides : ∀ placed ∈ m.outline, List.Forall₂ (fun key id => m.named p key = some id)
    placed.head.overrides (p.decl placed.id).overrides
  references : List.Forall₂ (Loader.Refers (m.named p)) m.references p.references.toList
  files : List.Forall₂ (IsFile (fun path => (p.dirsAt path).getLast?) p) m.files p.fileIds
  requests : ∀ e elements target, MoveEntry.resolve p e = .ok (elements, target) ↔
    MoveEntry.Finds p e elements target
  /-- A key that addresses a single declaration leads to it within the manifest. -/
  single : ∀ key, (∀ one ∈ m.outline, ∀ other ∈ m.outline, one.goesBy p key = true →
    other.goesBy p key = true → one.id = other.id) → m.named p key = m.firstAddressed p key
  /-- A key that is nobody's `id` leads to the first that it addresses, in the manifest and in a
  request. -/
  noId : ∀ key, m.withId key = [] →
    m.named p key = m.firstAddressed p key ∧ p.findDecl? key = m.firstAddressed p key
  /-- A path that is not repeated leads to one directory. -/
  path : ∀ path, (p.dirsAt path).length ≤ 1 → (p.dirsAt path).getLast? = (p.dirsAt path).head?

theorem addressed_of_load (returned : load m = .ok p) : Addressed m p := by
  obtain ⟨l, -, loaded⟩ := loaded_of_load returned
  have names := loaded.declNamed_eq
  have paths : l.dirAt = fun path => (p.dirsAt path).getLast? := funext loaded.dirAt_eq
  refine ⟨?_, names ▸ loaded.references, paths ▸ loaded.files, ?_, ?_, ?_, ?_⟩
  · intro placed listed
    apply (loaded.signed placed listed).overrides.imp
    intro key id found
    rw [← names]
    exact found
  · exact fun e elements target => MoveEntry.resolve_eq_ok
  · exact fun key => loaded.named_eq_firstAddressed
  · intro key noId
    have first := loaded.firstAddressed_of_no_id noId
    refine ⟨?_, first.symm⟩
    rw [first, named, noId]
    rfl
  · intro path short
    match p.dirsAt path, short with
    | [], _ => rfl
    | [dir], _ => rfl

/-- Two functions with one `id`, a class with the name of another declaration for its `id`, and two
directories of one path. -/
def twins : Manifest where
  modules := [{ name := "core", platform := .jvm }]
  directories := [{ path := "a", package := "a", module := some "core" },
    { path := "a", package := "b", module := some "core" }]
  files := [{ directory := "a", name := "Size.kt", declarations := [
    .node { kind := .function, name := "size", id := some "size" } [],
    .node { kind := .function, name := "size", id := some "size" } [],
    .node { kind := .plainClass, name := "Size", id := some "b.size" } []] }]
  references := [{ source := some "b.Size", target := some "size" },
    { source := some "b.Size", target := some "b.size" }]

theorem addressed_twins : ∃ p, load twins = .ok p ∧ Addressed twins p ∧
    (twins.withId "b.Size" = [] ∧ twins.named p "b.Size" = some ⟨2⟩) := by
  obtain ⟨p, returned, found⟩ : ∃ p, load twins = .ok p ∧
      (twins.withId "b.Size" = [] ∧ twins.named p "b.Size" = some ⟨2⟩) := by
    apply exists_eq_ok
    decide +kernel
  exact ⟨p, returned, addressed_of_load returned, found⟩

/-- Within a manifest a repeated `id` leads to the last that has it, an `id` comes before an earlier
declaration of that name, and a repeated path leads to the last directory. A request does not find
what has the `id`, and goes to the first directory. -/
theorem twins_addressed_apart : ∃ p, load twins = .ok p ∧
    (twins.firstAddressed p "size" = some ⟨0⟩ ∧ twins.firstAddressed p "b.size" = some ⟨0⟩) ∧
    p.references.toList.map Reference.target = [some ⟨1⟩, some ⟨2⟩] ∧
    p.findDecl? "size" = none ∧ p.findDecl? "b.size" = some ⟨0⟩ ∧
    (p.file ⟨0⟩).directory = ⟨1⟩ ∧ (p.dirsAt "a").head? = some ⟨0⟩ := by
  apply exists_eq_ok
  decide +kernel

end Manifest

end Relocation
