import Relocation.Proofs.Manifest.Loading
import Relocation.Proofs.Manifest.Outline
import Relocation.Proofs.Project.Children
set_option autoImplicit false

/-!
What the loader holds once all declarations are made and nothing of their signatures is resolved:
the declarations of the outline, in order, and their names.
-/

namespace Relocation

def Project.bare (p : Project) : List Declaration :=
  p.declIds.map fun id => { p.decl id with members := #[] }

def Project.dirsAt (p : Project) (path : String) : List DirId :=
  p.dirIds.filter fun dir => (p.directory dir).path == path

namespace Manifest

namespace Loader

theorem declNamed_nameIfNew (l : Loader) (name : String) (id : DeclId) (key : String) :
    (l.nameIfNew name id).declNamed key =
      (l.declNamed key).or (if name = key then some id else none) := by
  unfold nameIfNew declNamed
  by_cases same : name = key
  · subst same
    cases known : l.decls.lookup name <;> simp [known]
  · have other : (key == name) = false := beq_eq_false_iff_ne.mpr (Ne.symm same)
    cases l.decls.lookup name <;> simp [same, other, List.lookup_cons]

theorem declNamed_nameById (l : Loader) (name : Option String) (id : DeclId) (key : String) :
    (l.nameById name id).declNamed key =
      (if name = some key then some id else none).or (l.declNamed key) := by
  cases name with
  | none => rfl
  | some name =>
    by_cases same : name = key
    · simp [declNamed, nameById, same]
    · have other : (key == name) = false := beq_eq_false_iff_ne.mpr (Ne.symm same)
      simp [declNamed, nameById, same, other, List.lookup_cons]

theorem nameIfNew_eq (l : Loader) (name : String) (id : DeclId) :
    ∃ decls, l.nameIfNew name id = { l with decls } := by
  unfold nameIfNew
  split
  · exact ⟨_, rfl⟩
  · exact ⟨_, rfl⟩

theorem nameById_eq (l : Loader) (name : Option String) (id : DeclId) :
    ∃ decls, l.nameById name id = { l with decls } := by
  cases name with
  | none => exact ⟨_, rfl⟩
  | some name => exact ⟨_, rfl⟩

end Loader

def ownerName (p : Project) : Parent → Option String
  | .file _ => none
  | .decl owner => some (p.decl owner).name

theorem nameOf_eq (l : Loader) (parent : Parent) (head : DeclHead) :
    l.nameOf parent head = head.nameIn (ownerName l.project parent) := by
  unfold Loader.nameOf DeclHead.nameIn
  cases parent with
  | file home => cases head.kind <;> rfl
  | decl owner => cases kind : head.kind <;> simp [ownerName]

/-- Declarations are made, and get the names that they have in `p`. A name leads to the last that has
it as its `id`, or else to the first that it was the name of. -/
structure Declares (p : Project) (before after : Loader) (placed : List Placed) : Prop where
  bare : after.project.bare = before.project.bare ++ placed.map Placed.declaration
  names : ∀ key, after.declNamed key =
    (holders placed key).getLast?.or ((before.declNamed key).or (firstNamed p placed key))
  references : after.project.references = before.project.references
  types : after.project.types = before.project.types
  places : after.project.directories = before.project.directories
  directories : after.directories = before.directories

/-- Declarations are made one by one and wait for their signatures. -/
structure Adds (p : Project) (before after : Loader) (placed : List Placed) : Prop extends
    Declares p before after placed where
  pending : after.pending.Perm (before.pending ++ placed.map fun one => (one.id, one.head))

variable {p : Project} {first second third : Loader} {one other : List Placed}

theorem Declares.refl (l : Loader) : Declares p l l [] where
  bare := by simp
  names := by simp [holders, firstNamed]
  references := rfl
  types := rfl
  places := rfl
  directories := rfl

theorem Declares.trans (early : Declares p first second one) (late : Declares p second third other) :
    Declares p first third (one ++ other) where
  bare := by rw [late.bare, early.bare, List.map_append, List.append_assoc]
  names := by
    intro key
    simp only [late.names, early.names, holders_append, firstNamed_append, List.getLast?_append,
      Option.or_assoc]
  references := late.references.trans early.references
  types := late.types.trans early.types
  places := late.places.trans early.places
  directories := late.directories.trans early.directories

theorem Declares.size (declares : Declares p first second one) :
    second.project.decls.size = first.project.decls.size + one.length := by
  have length := congrArg List.length declares.bare
  simpa [Project.bare, Project.length_declIds] using length

theorem Adds.trans (early : Adds p first second one) (late : Adds p second third other) :
    Adds p first third (one ++ other) where
  toDeclares := early.toDeclares.trans late.toDeclares
  pending := by
    apply late.pending.trans
    rw [List.map_append, ← List.append_assoc]
    exact early.pending.append_right _

theorem bare_addDecl (p : Project) {data : Declaration} (without : data.members = #[]) :
    (p.addDecl data).bare = p.bare ++ [data] := by
  simp only [Project.bare, Project.declIds_addDecl, List.map_append, List.map_singleton]
  congr 1
  · apply List.map_congr_left
    intro id known
    have old : id ≠ p.nextDecl := fun new => Project.nextDecl_not_mem (new ▸ known)
    exact (Project.field_addDecl (fun data : Declaration => { data with members := #[] })
      (fun _ _ => rfl) data id).trans (if_neg old)
  · rw [Project.decl_addDecl, if_pos rfl, ← without]

theorem addDecl_frame (p : Project) (data : Declaration) :
    ∃ files decls, p.addDecl data = { p with files, decls } ∧ files.size = p.files.size := by
  rw [Project.addDecl_eq]
  cases data.parent with
  | file home => exact ⟨_, _, rfl, Array.size_modify ..⟩
  | decl owner => exact ⟨_, _, rfl, rfl⟩

def nextPlaced (p : Project) (parent : Parent) (head : DeclHead) (members : List DeclEntry) :
    Placed where
  id := p.nextDecl
  entry := .node head members
  name := head.nameIn (ownerName p parent)
  parent := parent

theorem declare_eq (l : Loader) (parent : Parent) (head : DeclHead) (members : List DeclEntry) :
    ∃ decls, l.declare parent head = { l with
      project := l.project.addDecl (nextPlaced l.project parent head members).declaration
      decls } := by
  unfold Loader.declare
  rw [nameOf_eq]
  let project := l.project.addDecl (nextPlaced l.project parent head members).declaration
  obtain ⟨decls, named⟩ := Loader.nameIfNew_eq { l with project }
    (project.qualifiedName l.project.nextDecl).text l.project.nextDecl
  obtain ⟨more, addressed⟩ := Loader.nameById_eq { l with project, decls } head.id
    l.project.nextDecl
  refine ⟨more, ?_⟩
  rw [← addressed, ← named]
  rfl

theorem declNamed_declare (l : Loader) (parent : Parent) (head : DeclHead) (key : String) :
    (l.declare parent head).declNamed key =
      (if head.id = some key then some l.project.nextDecl else none).or
        ((l.declNamed key).or
          (if ((l.declare parent head).project.qualifiedName l.project.nextDecl).text = key then
            some l.project.nextDecl else none)) := by
  have project : (l.declare parent head).project =
      l.project.addDecl (nextPlaced l.project parent head []).declaration := by
    obtain ⟨decls, same⟩ := declare_eq l parent head []
    rw [same]
  rw [project]
  unfold Loader.declare
  rw [Loader.declNamed_nameById, Loader.declNamed_nameIfNew, nameOf_eq]
  rfl

theorem declares_declare {l : Loader} (sound : l.Sound) {parent : Parent}
    (offered : l.project.Offers parent) (head : DeclHead) (members : List DeclEntry)
    (grown : (l.declare parent head).project.Extends p) :
    Declares p l (l.declare parent head) [nextPlaced l.project parent head members] := by
  obtain ⟨step, new⟩ := sound.declare offered head
  have name := grown.keeps.qualifiedName step.sound.built.listed new
  have names := declNamed_declare l parent head
  obtain ⟨decls, same⟩ := declare_eq l parent head members
  obtain ⟨files, made, frame, -⟩ :=
    addDecl_frame l.project (nextPlaced l.project parent head members).declaration
  constructor
  · rw [same]
    exact bare_addDecl l.project rfl
  · intro key
    rw [names, ← name]
    congr 1
    · by_cases here : head.id = some key
      · simp [holders, nextPlaced, Placed.head, DeclEntry.head, here]
      · simp [holders, nextPlaced, Placed.head, DeclEntry.head, beq_eq_false_iff_ne.mpr here, here]
    · congr 1
      simp only [firstNamed, nextPlaced, List.map_singleton, List.find?_singleton, beq_iff_eq]
  · rw [same, frame]
  · rw [same, frame]
  · rw [same, frame]
  · rw [same]

theorem pending_declare (l : Loader) (parent : Parent) (head : DeclHead) :
    (l.declare parent head).pending = l.pending := by
  obtain ⟨decls, same⟩ := declare_eq l parent head []
  rw [same]

theorem ownerName_grown {q : Project} (grown : p.Extends q) {parent : Parent}
    (offered : p.Offers parent) : ownerName q parent = ownerName p parent := by
  cases parent with
  | file home => rfl
  | decl owner => exact congrArg some (grown.keeps.name owner offered)

theorem ownerName_declare {l : Loader} (parent : Parent) (head : DeclHead) :
    ownerName (l.declare parent head).project (.decl l.project.nextDecl) =
      some (head.nameIn (ownerName l.project parent)) := by
  obtain ⟨decls, same⟩ := declare_eq l parent head []
  rw [same]
  simp [ownerName, Project.decl_addDecl, Placed.declaration, nextPlaced]

mutual

theorem adds_addDecl {parent : Parent} : ∀ {entry : DeclEntry} {l after : Loader}, l.Sound →
    l.project.Offers parent → Loader.addDecl parent entry l = .ok after →
    after.project.Extends p →
      Adds p l after (entry.place parent (ownerName l.project parent) l.project.decls.size)
  | .node head members, l, after, sound, offered, returned, grown => by
    obtain ⟨step, new⟩ := sound.declare offered head
    obtain ⟨middle, added, rfl⟩ := Loader.addDecl_node returned
    have inner : (l.declare parent head).project.Offers (.decl l.project.nextDecl) := new
    have below := Loader.Sound.addDecls step.sound inner added
    have here := declares_declare sound offered head members (below.grown.trans grown)
    have nested := adds_addDecls step.sound inner added grown
    rw [ownerName_declare, here.size] at nested
    have pending := nested.pending
    rw [pending_declare] at pending
    have all := here.trans nested.toDeclares
    refine ⟨⟨all.bare, all.names, all.references, all.types, all.places, all.directories⟩, ?_⟩
    -- A declaration waits behind its members.
    apply (pending.append_right _).trans
    rw [List.append_assoc]
    apply List.Perm.append_left
    exact List.perm_append_singleton _ _

theorem adds_addDecls {parent : Parent} : ∀ {entries : List DeclEntry} {l after : Loader},
    l.Sound → l.project.Offers parent → Loader.addDecls parent entries l = .ok after →
    after.project.Extends p →
      Adds p l after (placeAll parent (ownerName l.project parent) l.project.decls.size entries)
  | [], l, after, _, _, returned, _ => by
    unfold Loader.addDecls at returned
    cases returned
    exact ⟨Declares.refl l, by simp [placeAll]⟩
  | entry :: rest, l, after, sound, offered, returned, grown => by
    obtain ⟨middle, added, returned⟩ := Loader.addDecls_cons returned
    have step := Loader.Sound.addDecl sound offered added
    have others := Loader.Sound.addDecls step.sound (step.grown.offers offered) returned
    have one := adds_addDecl sound offered added (others.grown.trans grown)
    have more := adds_addDecls step.sound (step.grown.offers offered) returned grown
    rw [ownerName_grown step.grown offered, one.size] at more
    exact one.trans more

end

theorem files_declare (l : Loader) (parent : Parent) (head : DeclHead) :
    (l.declare parent head).project.files.size = l.project.files.size := by
  obtain ⟨decls, same⟩ := declare_eq l parent head []
  obtain ⟨files, made, frame, size⟩ :=
    addDecl_frame l.project (nextPlaced l.project parent head []).declaration
  rw [same, frame]
  exact size

mutual

theorem files_addDecl {parent : Parent} : ∀ {entry : DeclEntry} {l after : Loader},
    Loader.addDecl parent entry l = .ok after → after.project.files.size = l.project.files.size
  | .node head members, l, after, returned => by
    obtain ⟨middle, added, rfl⟩ := Loader.addDecl_node returned
    exact (files_addDecls added).trans (files_declare l parent head)

theorem files_addDecls {parent : Parent} : ∀ {entries : List DeclEntry} {l after : Loader},
    Loader.addDecls parent entries l = .ok after → after.project.files.size = l.project.files.size
  | [], l, after, returned => by
    unfold Loader.addDecls at returned
    cases returned
    rfl
  | entry :: rest, l, after, returned => by
    obtain ⟨middle, added, returned⟩ := Loader.addDecls_cons returned
    exact (files_addDecls returned).trans (files_addDecl added)

end

def IsFile (find : String → Option DirId) (p : Project) (e : FileEntry) (file : FileId) : Prop :=
  (p.file file).name = e.name ∧ find e.directory = some (p.file file).directory

theorem adds_withFile (l : Loader) (directory : DirId) (e : FileEntry) :
    Adds p l (l.withFile directory e) [] := by
  have declares : Declares p l (l.withFile directory e) [] := {
    bare := by simp [Loader.withFile, Project.addFile, Project.bare, Project.declIds, Project.decl]
    names := by simp [Loader.declNamed, Loader.withFile, holders, firstNamed]
    references := rfl
    types := rfl
    places := rfl
    directories := rfl }
  exact ⟨declares, by simp [Loader.withFile]⟩

theorem files_withFile (l : Loader) (directory : DirId) (e : FileEntry) :
    (l.withFile directory e).project.files.size = l.project.files.size + 1 :=
  Array.size_push ..

theorem adds_addFiles {entries : List FileEntry} {l after : Loader} (sound : l.Sound)
    (returned : entries.foldlM Loader.addFile l = .ok after) (grown : after.project.Extends p) :
    Adds p l after (placeFiles l.project.files.size l.project.decls.size entries) := by
  induction entries generalizing l with
  | nil =>
    cases returned
    exact ⟨Declares.refl _, by simp [placeFiles]⟩
  | cons e rest inductionHypothesis =>
    rw [List.foldlM_cons, bind_eq_ok] at returned
    obtain ⟨middle, added, returned⟩ := returned
    obtain ⟨directory, found, declared⟩ := Loader.addFile_eq_ok added
    obtain ⟨step, offered⟩ := sound.withFile found
    have sized := files_addDecls declared
    have soundMiddle := (sound.addFile added).sound
    have later : middle.project.Extends p :=
      (soundMiddle.foldlM (fun _ _ _ sound => sound.addFile) returned).grown.trans grown
    have here := (adds_withFile l directory e).trans
      (adds_addDecls step.sound offered declared later)
    have others := inductionHypothesis soundMiddle returned
    rw [here.size, sized, files_withFile] at others
    exact here.trans others

theorem isFile_addFile {l after : Loader} (sound : l.Sound) {e : FileEntry}
    (returned : l.addFile e = .ok after) :
    after.project.fileIds = l.project.fileIds ++ [l.project.nextFile] ∧
      after.directories = l.directories ∧
        IsFile l.dirAt after.project e l.project.nextFile := by
  obtain ⟨directory, found, declared⟩ := Loader.addFile_eq_ok returned
  obtain ⟨step, offered⟩ := sound.withFile found
  have size := (files_addDecls declared).trans (files_withFile l directory e)
  have adds := adds_addDecls step.sound offered declared (Project.Extends.refl _)
  have keeps := (Loader.Sound.addDecls step.sound offered declared).grown.keeps
  obtain ⟨declarations, same⟩ := keeps.file l.project.nextFile offered
  refine ⟨?_, adds.directories, ?_⟩
  · simp [Project.fileIds, size, List.range_succ, Project.nextFile]
  · have made : (l.withFile directory e).project.file l.project.nextFile =
        { name := e.name, directory, package := (e.package.map QualifiedName.mk).getD
            (l.project.directory directory).package } := by
      simp [Loader.withFile, Project.file, Project.addFile, Project.nextFile,
        Array.getD_eq_getD_getElem?]
    rw [IsFile, same, made]
    exact ⟨rfl, found⟩

theorem files_addFiles {entries : List FileEntry} {l after : Loader} (sound : l.Sound)
    (none : l.project.files = #[]) (returned : entries.foldlM Loader.addFile l = .ok after) :
    List.Forall₂ (IsFile l.dirAt after.project) entries after.project.fileIds := by
  have all : l.Step after ∧ after.directories = l.directories ∧
      List.Forall₂ (fun e file => file ∈ after.project.fileIds ∧
        IsFile l.dirAt after.project e file) entries after.project.fileIds := by
    refine foldlM_induction (fun taken current => l.Step current ∧
      current.directories = l.directories ∧ List.Forall₂ (fun e file =>
        file ∈ current.project.fileIds ∧ IsFile l.dirAt current.project e file) taken
          current.project.fileIds) ⟨Loader.Step.refl sound, rfl, ?_⟩ ?_ returned
    · simp [Project.fileIds, none]
    · rintro taken e _ before after ⟨step, directories, early⟩ added
      have next := step.sound.addFile added
      obtain ⟨ids, same, last⟩ := isFile_addFile step.sound added
      refine ⟨step.trans next, same.trans directories, ?_⟩
      have sameDirs : before.dirAt = l.dirAt := by
        funext path
        simp [Loader.dirAt, directories]
      rw [sameDirs] at last
      rw [ids]
      apply List.rel_append
      · apply early.imp
        rintro e file ⟨known, isFile⟩
        obtain ⟨declarations, kept⟩ := next.grown.keeps.file file known
        exact ⟨List.mem_append_left _ known, by simpa [IsFile, kept] using isFile⟩
      · exact .cons ⟨by simp, last⟩ .nil
  exact all.2.2.imp fun _ _ => And.right

/-- No file has been read, and a path leads to the last of the directories that have it. -/
structure Blank (l : Loader) : Prop where
  noDecls : l.project.decls = #[]
  noFiles : l.project.files = #[]
  noReferences : l.project.references = #[]
  noTypes : l.project.types = .empty
  noNames : l.decls = []
  nonePending : l.pending = []
  directories : ∀ path, l.dirAt path = (l.project.dirsAt path).getLast?

def NoPlaces (l : Loader) : Prop :=
  ∃ modules libraries sdks moduleNames libraryNames sdkNames, l = {
    project := { modules, libraries, sdks }
    modules := moduleNames, libraries := libraryNames, sdks := sdkNames }

theorem NoPlaces.link {l after : Loader} (noPlaces : NoPlaces l) {α : Type}
    {find : String → Except Problem α} {add : Project → α → Project} {names : List String}
    (frame : ∀ p other, ∃ modules, add p other = { p with modules })
    (returned : l.link find add names = .ok after) : NoPlaces after := by
  unfold Loader.link at returned
  obtain ⟨project, folded, done⟩ := bind_eq_ok.mp returned
  cases done
  refine foldlM_induction (fun _ project => NoPlaces { l with project }) noPlaces ?_ folded
  rintro _ name _ before after ⟨modules, libraries, sdks, _, _, _, same⟩ stepped
  obtain ⟨other, -, done⟩ := bind_eq_ok.mp stepped
  cases done
  obtain ⟨edited, edit⟩ := frame before other
  rw [Loader.mk.injEq] at same
  obtain ⟨rfl, -, -, -, directories, decls, pending⟩ := same
  exact ⟨edited, libraries, sdks, _, _, _, by rw [edit, directories, decls, pending]⟩

theorem NoPlaces.connect {l after : Loader} (noPlaces : NoPlaces l) {e : ModuleEntry}
    (returned : l.connect e = .ok after) : NoPlaces after := by
  unfold Loader.connect at returned
  obtain ⟨id, -, returned⟩ := bind_eq_ok.mp returned
  obtain ⟨first, dependencies, returned⟩ := bind_eq_ok.mp returned
  obtain ⟨second, libraries, returned⟩ := bind_eq_ok.mp returned
  obtain ⟨third, sdks, implements⟩ := bind_eq_ok.mp returned
  have toFirst := noPlaces.link (fun p other => ⟨_, rfl⟩) dependencies
  have toSecond := toFirst.link (fun p other => ⟨_, rfl⟩) libraries
  have toThird := toSecond.link (fun p other => ⟨_, rfl⟩) sdks
  exact toThird.link (fun p other => ⟨_, rfl⟩) implements

theorem dirsAt_of_same {p q : Project} (same : q.directories = p.directories) (path : String) :
    q.dirsAt path = p.dirsAt path := by
  simp [Project.dirsAt, Project.dirIds, Project.directory, same]

theorem dirsAt_addDirectory (p : Project) (path : String) (root : SourceRoot)
    (package : QualifiedName) (other : String) :
    (p.addDirectory path root package).dirsAt other =
      p.dirsAt other ++ if path = other then [p.nextDir] else [] := by
  have ids : (p.addDirectory path root package).dirIds = p.dirIds ++ [p.nextDir] := by
    simp [Project.dirIds, Project.addDirectory, List.range_succ, Project.nextDir]
  unfold Project.dirsAt
  rw [ids, List.filter_append]
  congr 1
  · apply List.filter_congr
    intro dir known
    rw [Project.mem_dirIds] at known
    simp [Project.directory, Project.addDirectory, Array.getD_eq_getD_getElem?,
      Array.getElem?_push, Nat.ne_of_lt known]
  · have last : ((p.addDirectory path root package).directory p.nextDir).path = path := by
      simp [Project.directory, Project.addDirectory, Project.nextDir, Array.getD_eq_getD_getElem?]
    rw [List.filter_singleton, last]
    by_cases same : path = other
    · simp [same]
    · simp [same, beq_eq_false_iff_ne.mpr same]

theorem Blank.addDirectory {l after : Loader} (blank : Blank l) {e : DirectoryEntry}
    (returned : l.addDirectory e = .ok after) : Blank after := by
  unfold Loader.addDirectory at returned
  obtain ⟨root, -, done⟩ := bind_eq_ok.mp returned
  cases done
  refine ⟨blank.noDecls, blank.noFiles, blank.noReferences, blank.noTypes, blank.noNames,
    blank.nonePending, ?_⟩
  intro path
  have early := blank.directories path
  simp only [Loader.dirAt, List.lookup_cons] at early ⊢
  rw [dirsAt_addDirectory, List.getLast?_append, early]
  by_cases same : e.path = path
  · simp [same]
  · simp [same, beq_eq_false_iff_ne.mpr (Ne.symm same)]

theorem blank_of_prepared {m : Manifest} {l : Loader} (returned : prepared m = .ok l) :
    Blank l := by
  unfold prepared at returned
  obtain ⟨connected, linked, directories⟩ := bind_eq_ok.mp returned
  have frame {Entry : Type} (entries : List Entry) (add : Loader → Entry → Loader)
      (kept : ∀ l e, NoPlaces l → NoPlaces (add l e)) {l : Loader} (noPlaces : NoPlaces l) :
      NoPlaces (entries.foldl add l) :=
    List.foldlRecOn entries add noPlaces fun l noPlaces e _ => kept l e noPlaces
  have sdks := frame m.sdks Loader.addSdk
    (by rintro _ e ⟨_, _, _, _, _, _, rfl⟩; exact ⟨_, _, _, _, _, _, rfl⟩)
    ⟨#[], #[], #[], [], [], [], rfl⟩
  have libraries := frame m.libraries Loader.addLibrary
    (by rintro _ e ⟨_, _, _, _, _, _, rfl⟩; exact ⟨_, _, _, _, _, _, rfl⟩) sdks
  have modules := frame m.modules Loader.addModule
    (by rintro _ e ⟨_, _, _, _, _, _, rfl⟩; exact ⟨_, _, _, _, _, _, rfl⟩) libraries
  have noPlaces : NoPlaces connected := by
    refine foldlM_induction (fun _ => NoPlaces) modules ?_ linked
    exact fun _ e _ before after noPlaces added => noPlaces.connect added
  refine foldlM_induction (fun _ => Blank) ?_ ?_ directories
  · obtain ⟨modules, libraries, sdks, _, _, _, rfl⟩ := noPlaces
    exact ⟨rfl, rfl, rfl, rfl, rfl, rfl, fun _ => rfl⟩
  · exact fun _ e _ before after blank added => blank.addDirectory added

/-- All declarations of the outline are there and wait for their signatures. -/
structure Outlined (m : Manifest) (l : Loader) : Prop where
  bare : l.project.bare = m.outline.map Placed.declaration
  ids : m.outline.map Placed.id = l.project.declIds
  pending : l.pending.Perm (m.outline.map fun placed => (placed.id, placed.head))
  files : List.Forall₂ (IsFile l.dirAt l.project) m.files l.project.fileIds
  noReferences : l.project.references = #[]
  noTypes : l.project.types = .empty
  names : ∀ p, l.project.Extends p → p.declIds = l.project.declIds → ∀ key,
    l.declNamed key = (m.withId key).getLast?.or (p.findDecl? key)
  directories : ∀ path, l.dirAt path = (l.project.dirsAt path).getLast?

theorem outlined_of_declared {m : Manifest} {l : Loader} (returned : declared m = .ok l) :
    Outlined m l := by
  obtain ⟨start, ready, files⟩ := bind_eq_ok.mp returned
  have blank := blank_of_prepared ready
  have sound := sound_of_prepared ready
  have adds {p : Project} (grown : l.project.Extends p) : Adds p start l m.outline := by
    have adds := adds_addFiles sound files grown
    rwa [blank.noFiles, blank.noDecls] at adds
  have here := adds (Project.Extends.refl _)
  have ids : m.outline.map Placed.id = l.project.declIds := by
    rw [outline, ids_placeFiles, ← List.range_eq_range', Project.declIds, here.size, blank.noDecls,
      Array.size_empty, Nat.zero_add]
    rfl
  refine ⟨?_, ids, ?_, ?_, ?_, ?_, ?_, ?_⟩
  · simpa [Project.bare, Project.declIds, blank.noDecls] using here.bare
  · simpa [blank.nonePending] using here.pending
  · have same : l.dirAt = start.dirAt := by
      funext path
      simp [Loader.dirAt, here.directories]
    rw [same]
    exact files_addFiles sound blank.noFiles files
  · exact here.references.trans blank.noReferences
  · exact here.types.trans blank.noTypes
  · intro p grown sameIds key
    rw [(adds grown).names, Loader.declNamed, blank.noNames, firstNamed, ids, ← sameIds]
    rfl
  · intro path
    have same : l.project.dirsAt path = start.project.dirsAt path :=
      dirsAt_of_same here.places path
    rw [same, ← blank.directories, Loader.dirAt, here.directories]
    rfl

end Manifest

end Relocation
