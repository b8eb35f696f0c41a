import Relocation.Proofs.Manifest.Interning
import Relocation.Proofs.Project.Extends
set_option autoImplicit false

/-!
The project that a manifest describes is built by calls none of which fails.

The loader hands identifiers on under the names of the manifest. Every identifier that it has a
name for stands for an entry that is there, and goes on doing so while the project grows. So each
call finds what it changes or starts from.
-/

namespace Relocation.Manifest

open Project (Extends Offers)

namespace Loader

/-- The project has been built, and what has a name or is waiting is there. -/
structure Sound (l : Loader) : Prop where
  built : l.project.Built
  modules : ∀ entry ∈ l.modules, entry.2 ∈ l.project.moduleIds
  directories : ∀ entry ∈ l.directories, entry.2 ∈ l.project.dirIds
  decls : ∀ entry ∈ l.decls, entry.2 ∈ l.project.declIds
  pending : ∀ entry ∈ l.pending, entry.1 ∈ l.project.declIds

/-- A step of the loader: the project grows, and the loader stays sound. -/
structure Step (before after : Loader) : Prop where
  sound : after.Sound
  grown : before.project.Extends after.project

theorem Step.refl {l : Loader} (sound : l.Sound) : l.Step l := ⟨sound, Extends.refl _⟩

theorem Step.trans {first second third : Loader} (one : first.Step second)
    (other : second.Step third) : first.Step third :=
  ⟨other.sound, one.grown.trans other.grown⟩

def declNamed (l : Loader) (key : String) : Option DeclId := l.decls.lookup key

def dirAt (l : Loader) (path : String) : Option DirId := l.directories.lookup path

theorem find_eq_ok {α : Type} {names : Names α} {problem : String → Problem} {name : String}
    {id : α} : find names problem name = .ok id ↔ names.lookup name = some id := by
  unfold find
  cases names.lookup name with
  | none => exact ⟨nofun, nofun⟩
  | some other => simp

theorem mem_of_find {α : Type} {names : Names α} {problem : String → Problem} {name : String}
    {id : α} (found : find names problem name = .ok id) : (name, id) ∈ names := by
  obtain ⟨before, after, rfl, -⟩ := List.lookup_eq_some_iff.mp (find_eq_ok.mp found)
  simp

section Sound

variable {l : Loader} (sound : l.Sound)
include sound

theorem Sound.grow {project : Project} (grown : l.project.Extends project) :
    l.Step { l with project } where
  grown := grown
  sound := {
    built := grown.built sound.built
    modules := fun entry named => grown.mem_moduleIds (sound.modules entry named)
    directories := fun entry named => grown.mem_dirIds (sound.directories entry named)
    decls := fun entry named => grown.mem_declIds (sound.decls entry named)
    pending := fun entry waiting => grown.mem_declIds (sound.pending entry waiting) }

theorem Sound.addSdk (e : SdkEntry) : l.Step (l.addSdk e) := by
  have step := sound.grow (Extends.call (.sdk e.name e.kind) rfl)
  exact ⟨⟨step.sound.built, step.sound.modules, step.sound.directories, step.sound.decls,
    step.sound.pending⟩, step.grown⟩

theorem Sound.addLibrary (e : LibraryEntry) : l.Step (l.addLibrary e) := by
  have step := sound.grow (Extends.call (.library e.name e.platform) rfl)
  exact ⟨⟨step.sound.built, step.sound.modules, step.sound.directories, step.sound.decls,
    step.sound.pending⟩, step.grown⟩

theorem Sound.addModule (e : ModuleEntry) : l.Step (l.addModule e) := by
  have step := sound.grow (Extends.call (.module e.name e.platform) rfl)
  refine ⟨⟨step.sound.built, ?_, step.sound.directories, step.sound.decls, step.sound.pending⟩,
    step.grown⟩
  intro entry named
  rcases List.mem_cons.mp named with rfl | early
  · simp [Loader.addModule, Project.mem_moduleIds, Project.addModule, Project.nextModule]
  · exact step.sound.modules entry early

theorem Sound.link {α : Type} {find : String → Except Problem α} {add : Project → α → Project}
    {names : List String} {after : Loader} {id : ModuleId} (known : id ∈ l.project.moduleIds)
    (ready : ∀ (project : Project) other, id ∈ project.moduleIds →
      project.Extends (add project other))
    (returned : l.link find add names = .ok after) : l.Step after := by
  unfold Loader.link at returned
  obtain ⟨project, folded, done⟩ := bind_eq_ok.mp returned
  cases done
  apply sound.grow
  refine foldlM_induction (fun _ project => l.project.Extends project) (Extends.refl _) ?_ folded
  intro _ name _ before after grown stepped
  obtain ⟨other, -, done⟩ := bind_eq_ok.mp stepped
  cases done
  exact grown.trans (ready before other (grown.mem_moduleIds known))

theorem Sound.connect {e : ModuleEntry} {after : Loader} (returned : l.connect e = .ok after) :
    l.Step after := by
  unfold Loader.connect at returned
  obtain ⟨id, found, returned⟩ := bind_eq_ok.mp returned
  obtain ⟨first, dependencies, returned⟩ := bind_eq_ok.mp returned
  obtain ⟨second, libraries, returned⟩ := bind_eq_ok.mp returned
  obtain ⟨third, sdks, implements⟩ := bind_eq_ok.mp returned
  have known : id ∈ l.project.moduleIds := sound.modules _ (mem_of_find found)
  have toFirst := sound.link known (fun project other known =>
    Extends.call (.dependency id other) (List.contains_iff_mem.mpr known)) dependencies
  have toSecond := toFirst.trans (toFirst.sound.link (toFirst.grown.mem_moduleIds known)
    (fun project other known =>
      Extends.call (.moduleLibrary id other) (List.contains_iff_mem.mpr known)) libraries)
  have toThird := toSecond.trans (toSecond.sound.link (toSecond.grown.mem_moduleIds known)
    (fun project other known =>
      Extends.call (.moduleSdk id other) (List.contains_iff_mem.mpr known)) sdks)
  exact toThird.trans (toThird.sound.link (toThird.grown.mem_moduleIds known)
    (fun project other known =>
      Extends.call (.implemented id other) (List.contains_iff_mem.mpr known)) implements)

theorem Sound.addDirectory {e : DirectoryEntry} {after : Loader}
    (returned : l.addDirectory e = .ok after) : l.Step after := by
  unfold Loader.addDirectory at returned
  obtain ⟨root, -, done⟩ := bind_eq_ok.mp returned
  cases done
  have step := sound.grow (Extends.call (.directory e.path root ⟨e.package⟩) rfl)
  refine ⟨⟨step.sound.built, step.sound.modules, ?_, step.sound.decls, step.sound.pending⟩,
    step.grown⟩
  intro entry named
  rcases List.mem_cons.mp named with rfl | early
  · simp [Project.mem_dirIds, Project.addDirectory, Project.nextDir]
  · exact step.sound.directories entry early

theorem Sound.nameById {id : DeclId} (known : id ∈ l.project.declIds) (name : Option String) :
    l.Step (l.nameById name id) := by
  cases name with
  | none => exact Step.refl sound
  | some name =>
    refine ⟨⟨sound.built, sound.modules, sound.directories, ?_, sound.pending⟩, Extends.refl _⟩
    intro entry named
    rcases List.mem_cons.mp named with rfl | early
    · exact known
    · exact sound.decls entry early

theorem Sound.nameIfNew {id : DeclId} (known : id ∈ l.project.declIds) (name : String) :
    l.Step (l.nameIfNew name id) := by
  unfold Loader.nameIfNew
  split
  · exact Step.refl sound
  · exact sound.nameById known (some name)

theorem Sound.declare {parent : Parent} (offered : l.project.Offers parent) (head : DeclHead) :
    l.Step (l.declare parent head) ∧
      l.project.nextDecl ∈ (l.declare parent head).project.declIds := by
  -- What the declaration holds plays no part, but for its parent and that it has no members.
  have general (data : Declaration) (bare : data.members = #[]) (parent : data.parent = parent)
      (name : Project → String) :
      let named := ({ l with project := l.project.addDecl data }.nameIfNew
        (name (l.project.addDecl data)) l.project.nextDecl).nameById head.id l.project.nextDecl
      l.Step named ∧ l.project.nextDecl ∈ named.project.declIds := by
    have added := sound.grow (Extends.addDecl bare (parent ▸ offered))
    have new : l.project.nextDecl ∈ (l.project.addDecl data).declIds :=
      (Project.mem_declIds_addDecl data).mpr (Or.inr rfl)
    have once := added.sound.nameIfNew new (name (l.project.addDecl data))
    have twice := once.sound.nameById (once.grown.mem_declIds new) head.id
    exact ⟨added.trans (once.trans twice), twice.grown.mem_declIds (once.grown.mem_declIds new)⟩
  exact general _ rfl rfl fun project => (project.qualifiedName l.project.nextDecl).text

end Sound

theorem addDecl_node {parent : Parent} {head : DeclHead} {members : List DeclEntry}
    {l after : Loader} (returned : addDecl parent (.node head members) l = .ok after) :
    ∃ middle, addDecls (.decl l.project.nextDecl) members (l.declare parent head) = .ok middle ∧
      after = { middle with pending := middle.pending ++ [(l.project.nextDecl, head)] } := by
  have rest (returned : (addDecls (.decl l.project.nextDecl) members (l.declare parent head) >>=
      fun l' => pure { l' with pending := l'.pending ++ [(l.project.nextDecl, head)] }) =
        .ok after) :
      ∃ middle, addDecls (.decl l.project.nextDecl) members (l.declare parent head) = .ok middle ∧
        after = { middle with pending := middle.pending ++ [(l.project.nextDecl, head)] } := by
    obtain ⟨middle, added, done⟩ := bind_eq_ok.mp returned
    cases done
    exact ⟨middle, added, rfl⟩
  unfold addDecl at returned
  cases parent with
  | file home => exact rest returned
  | decl owner =>
    dsimp only at returned
    split at returned
    · cases returned
    · exact rest returned

theorem addDecls_cons {parent : Parent} {entry : DeclEntry} {rest : List DeclEntry}
    {l after : Loader} (returned : addDecls parent (entry :: rest) l = .ok after) :
    ∃ middle, addDecl parent entry l = .ok middle ∧ addDecls parent rest middle = .ok after := by
  unfold addDecls at returned
  exact bind_eq_ok.mp returned

mutual

theorem Sound.addDecl {parent : Parent} : ∀ {entry : DeclEntry} {l after : Loader}, l.Sound →
    l.project.Offers parent → addDecl parent entry l = .ok after → l.Step after
  | .node head members, l, after, sound, offered, returned => by
    obtain ⟨declared, new⟩ := sound.declare offered head
    obtain ⟨middle, added, rfl⟩ := addDecl_node returned
    have inner : (l.declare parent head).project.Offers (.decl l.project.nextDecl) := new
    have below := Sound.addDecls declared.sound inner added
    have through := declared.trans below
    refine ⟨⟨through.sound.built, through.sound.modules, through.sound.directories,
      through.sound.decls, ?_⟩, through.grown⟩
    intro entry waiting
    rcases List.mem_append.mp waiting with early | last
    · exact through.sound.pending entry early
    · cases List.mem_singleton.mp last
      exact below.grown.mem_declIds new

theorem Sound.addDecls {parent : Parent} : ∀ {entries : List DeclEntry} {l after : Loader},
    l.Sound → l.project.Offers parent → addDecls parent entries l = .ok after → l.Step after
  | [], l, after, sound, _, returned => by
    unfold Loader.addDecls at returned
    cases returned
    exact Step.refl sound
  | entry :: rest, l, after, sound, offered, returned => by
    obtain ⟨middle, added, returned⟩ := addDecls_cons returned
    have one := Sound.addDecl sound offered added
    exact one.trans (Sound.addDecls one.sound (one.grown.offers offered) returned)

end

def withFile (l : Loader) (directory : DirId) (e : FileEntry) : Loader :=
  { l with project := l.project.addFile directory e.name (e.package.map QualifiedName.mk) }

theorem addFile_eq_ok {l after : Loader} {e : FileEntry} (returned : l.addFile e = .ok after) :
    ∃ directory, l.dirAt e.directory = some directory ∧
      addDecls (.file l.project.nextFile) e.declarations (l.withFile directory e) = .ok after := by
  unfold Loader.addFile at returned
  obtain ⟨directory, found, returned⟩ := bind_eq_ok.mp returned
  exact ⟨directory, find_eq_ok.mp found, returned⟩

section Sound

variable {l : Loader} (sound : l.Sound)
include sound

theorem Sound.withFile {directory : DirId} {e : FileEntry}
    (found : l.dirAt e.directory = some directory) :
    l.Step (l.withFile directory e) ∧
      (l.withFile directory e).project.Offers (.file l.project.nextFile) := by
  have known : directory ∈ l.project.dirIds := by
    obtain ⟨before, after, named, -⟩ := List.lookup_eq_some_iff.mp found
    apply sound.directories (e.directory, directory)
    rw [named]
    simp
  have ready : (BuilderCall.file directory e.name (e.package.map QualifiedName.mk)).isReady
      l.project = true := by
    cases e.package with
    | none => exact List.contains_iff_mem.mpr known
    | some package => rfl
  refine ⟨sound.grow (Extends.call _ ready), ?_⟩
  simp [Offers, Project.mem_fileIds, Loader.withFile, Project.addFile, Project.nextFile]

theorem Sound.addFile {e : FileEntry} {after : Loader} (returned : l.addFile e = .ok after) :
    l.Step after := by
  obtain ⟨directory, found, returned⟩ := addFile_eq_ok returned
  obtain ⟨added, offered⟩ := sound.withFile found
  exact added.trans (Sound.addDecls added.sound offered returned)

end Sound

theorem keptByTaking_extends : KeptByTaking Project.Extends where
  refl := Extends.refl
  trans := fun _ _ _ => Extends.trans
  taken := fun _ shape => Extends.call (.internedType shape) rfl

theorem extends_internType {names : Names DeclId} {context : DeclId} {text : String}
    {type : TypeText} {p q : Project} {id : TypeId}
    (returned : internType names context text type p = .ok (id, q)) : p.Extends q :=
  keptByTaking_extends.internType returned

theorem extends_addType {names : Names DeclId} {context : DeclId}
    {add : Project → TypeId → Project} {p q : Project} {text : String}
    (ready : ∀ (r : Project) type, context ∈ r.declIds → r.Extends (add r type))
    (known : context ∈ p.declIds) (returned : addType names context add p text = .ok q) :
    p.Extends q := by
  unfold addType resolveType at returned
  obtain ⟨⟨type, middle⟩, resolved, done⟩ := bind_eq_ok.mp returned
  cases done
  split at resolved
  · cases resolved
  · have interned := extends_internType resolved
    exact interned.trans (ready middle type (interned.mem_declIds known))

theorem extends_foldlM {Entry : Type} {step : Project → Entry → Except Problem Project}
    {entries : List Entry} {p q : Project} {id : DeclId} (known : id ∈ p.declIds)
    (ready : ∀ (r s : Project) entry, id ∈ r.declIds → step r entry = .ok s → r.Extends s)
    (returned : entries.foldlM step p = .ok q) : p.Extends q := by
  refine foldlM_induction (fun _ r => p.Extends r) (Extends.refl p) ?_ returned
  intro _ entry _ before after grown stepped
  exact grown.trans (ready before after entry (grown.mem_declIds known) stepped)

theorem extends_resolveHead {names : Names DeclId} {p q : Project} {waiting : DeclId × DeclHead}
    (known : waiting.1 ∈ p.declIds) (returned : resolveHead names p waiting = .ok q) :
    p.Extends q := by
  obtain ⟨id, head⟩ := waiting
  have call (call : BuilderCall) (r : Project) (ready : call.isReady r = r.declIds.contains id)
      (known : id ∈ r.declIds) : r.Extends (call.perform r) :=
    Extends.call call (ready.trans (List.contains_iff_mem.mpr known))
  unfold resolveHead at returned
  obtain ⟨first, supertypes, returned⟩ := bind_eq_ok.mp returned
  obtain ⟨second, overrides, returned⟩ := bind_eq_ok.mp returned
  obtain ⟨third, params, returned⟩ := bind_eq_ok.mp returned
  obtain ⟨fourth, type, bounds⟩ := bind_eq_ok.mp returned
  have toFirst : p.Extends first := by
    refine extends_foldlM known (fun r s text known added => ?_) supertypes
    exact extends_addType (fun r type => call (.supertype id type) r rfl) known added
  have toSecond : p.Extends second := by
    refine toFirst.trans (extends_foldlM (toFirst.mem_declIds known) (fun r s name known added => ?_)
      overrides)
    obtain ⟨other, -, done⟩ := bind_eq_ok.mp added
    cases done
    exact call (.overridden id other) r rfl known
  have toThird : p.Extends third := by
    refine toSecond.trans (extends_foldlM (toSecond.mem_declIds known)
      (fun r s param known added => ?_) params)
    exact extends_addType (fun r type => call (.param id param.name type) r rfl) known added
  have toFourth : p.Extends fourth := by
    refine toThird.trans (extends_foldlM (toThird.mem_declIds known)
      (fun r s text known added => ?_) type)
    exact extends_addType (fun r type => call (.declaredType id type) r rfl) known added
  refine toFourth.trans (extends_foldlM (toFourth.mem_declIds known)
    (fun r s text known added => ?_) bounds)
  exact extends_addType (fun r type => call (.bound id type) r rfl) known added

section Sound

variable {l : Loader} (sound : l.Sound)
include sound

theorem Sound.resolveHeads {after : Loader} (returned : l.resolveHeads = .ok after) :
    l.Step after := by
  unfold Loader.resolveHeads at returned
  obtain ⟨project, folded, done⟩ := bind_eq_ok.mp returned
  cases done
  have grown : l.project.Extends project := by
    refine foldlM_induction (fun _ project => l.project.Extends project) (Extends.refl _) ?_ folded
    intro _ waiting listed before after grown resolved
    have known := grown.mem_declIds (sound.pending waiting listed)
    exact grown.trans (extends_resolveHead known resolved)
  have step := sound.grow grown
  refine ⟨⟨step.sound.built, step.sound.modules, step.sound.directories, step.sound.decls, ?_⟩,
    step.grown⟩
  intro entry waiting
  cases waiting

theorem Sound.addReference {e : ReferenceEntry} {after : Loader}
    (returned : l.addReference e = .ok after) : l.Step after := by
  unfold Loader.addReference at returned
  obtain ⟨target, found, returned⟩ := bind_eq_ok.mp returned
  have named : ∀ id ∈ target, id ∈ l.project.declIds := by
    intro id isTarget
    cases isTarget
    cases text : e.target with
    | none =>
      rw [text] at found
      cases found
    | some name =>
      rw [text] at found
      obtain ⟨other, found, done⟩ := bind_eq_ok.mp found
      cases done
      exact sound.decls _ (mem_of_find found)
  have known {name : String} {id : DeclId} (found : l.findDecl name = .ok id) :
      l.project.declIds.contains id = true :=
    List.contains_iff_mem.mpr (sound.decls _ (mem_of_find found))
  have rest {project : Project} (grown : l.project.Extends project)
      (done : (pure { l with project } : Except Problem Loader) = .ok after) : l.Step after := by
    cases done
    exact sound.grow grown
  cases written : e.source with
  | none =>
    simp only [written] at returned
    obtain ⟨home, -, returned⟩ := bind_eq_ok.mp returned
    apply rest (Extends.call (.reference home none target e.flags) ?_) returned
    cases target with
    | none => rfl
    | some id => exact List.contains_iff_mem.mpr (named id rfl)
  | some source =>
    cases target with
    | none =>
      simp only [written] at returned
      obtain ⟨owner, found, returned⟩ := bind_eq_ok.mp returned
      exact rest (Extends.call (.unresolved owner "") (known found)) returned
    | some id =>
      simp only [written] at returned
      obtain ⟨owner, found, returned⟩ := bind_eq_ok.mp returned
      apply rest (Extends.call (.referenceFrom owner id e.flags) ?_) returned
      simp only [BuilderCall.isReady, known found, Bool.true_and]
      exact List.contains_iff_mem.mpr (named id rfl)

end Sound

theorem sound_empty : ({} : Loader).Sound := by
  refine ⟨Extends.refl {}, ?_, ?_, ?_, ?_⟩ <;>
  · intro entry named
    cases named

theorem Sound.foldl {Entry : Type} {add : Loader → Entry → Loader} {l : Loader} (sound : l.Sound)
    (entries : List Entry) (ready : ∀ (l : Loader) entry, l.Sound → l.Step (add l entry)) :
    (entries.foldl add l).Sound :=
  List.foldlRecOn entries add sound fun l sound entry _ => (ready l entry sound).sound

theorem Sound.foldlM {Entry : Type} {add : Loader → Entry → Except Problem Loader}
    {l after : Loader} (sound : l.Sound) {entries : List Entry}
    (ready : ∀ (before after : Loader) entry, before.Sound → add before entry = .ok after →
      before.Step after)
    (returned : entries.foldlM add l = .ok after) : l.Step after := by
  refine foldlM_induction (fun _ => l.Step) (Step.refl sound) ?_ returned
  intro _ entry _ before after step added
  exact step.trans (ready before after entry step.sound added)

end Loader

/-- The loader when all that is left to read are files and references. -/
def prepared (m : Manifest) : Except Problem Loader := do
  let l := m.sdks.foldl Loader.addSdk {}
  let l := m.libraries.foldl Loader.addLibrary l
  let l := m.modules.foldl Loader.addModule l
  let l ← m.modules.foldlM Loader.connect l
  m.directories.foldlM Loader.addDirectory l

/-- The loader once all declarations are made, with nothing of their signatures resolved. -/
def declared (m : Manifest) : Except Problem Loader := do
  m.files.foldlM Loader.addFile (← prepared m)

theorem load_eq_ok {m : Manifest} {p : Project} :
    load m = .ok p ↔ ∃ l resolved last, declared m = .ok l ∧ l.resolveHeads = .ok resolved ∧
      m.references.foldlM Loader.addReference resolved = .ok last ∧ last.project = p := by
  have split : load m = declared m >>= fun l => l.resolveHeads >>= fun resolved =>
      m.references.foldlM Loader.addReference resolved >>= fun last => .ok last.project := by
    simp only [load, declared, prepared, bind_assoc]
    rfl
  simp only [split, bind_eq_ok, Except.ok.injEq]
  constructor
  · rintro ⟨l, made, resolved, heads, last, references, done⟩
    exact ⟨l, resolved, last, made, heads, references, done⟩
  · rintro ⟨l, resolved, last, made, heads, references, done⟩
    exact ⟨l, made, resolved, heads, last, references, done⟩

theorem sound_of_prepared {m : Manifest} {l : Loader} (returned : prepared m = .ok l) :
    l.Sound := by
  unfold prepared at returned
  obtain ⟨connected, linked, directories⟩ := bind_eq_ok.mp returned
  have sdks := Loader.sound_empty.foldl m.sdks fun l e sound => sound.addSdk e
  have libraries := sdks.foldl m.libraries fun l e sound => sound.addLibrary e
  have modules := libraries.foldl m.modules fun l e sound => sound.addModule e
  have links := (modules.foldlM (fun _ _ _ sound => sound.connect) linked).sound
  exact (links.foldlM (fun _ _ _ sound => sound.addDirectory) directories).sound

theorem sound_of_declared {m : Manifest} {l : Loader} (returned : declared m = .ok l) :
    l.Sound := by
  obtain ⟨start, ready, files⟩ := bind_eq_ok.mp returned
  exact ((sound_of_prepared ready).foldlM (fun _ _ _ sound => sound.addFile) files).sound

/-- Loading makes no call that fails, so its result is a project that the builder makes. -/
theorem built_of_load {m : Manifest} {p : Project} (returned : load m = .ok p) : p.Built := by
  obtain ⟨l, resolved, last, made, heads, references, rfl⟩ := load_eq_ok.mp returned
  have names := ((sound_of_declared made).resolveHeads heads).sound
  exact (names.foldlM (fun _ _ _ sound => sound.addReference) references).sound.built

end Relocation.Manifest
