import Relocation.Manifest.Entry
import Relocation.Project.Place
import Relocation.Proofs.Project.Names
set_option autoImplicit false

/-!
The outline of a manifest: its declarations in the order in which they stand in the text, numbered
from zero, each with the declaration or the file around it. A declaration comes before its members,
and these come before its next sibling.

Nothing here looks at a project, so the outline says what a project should hold.
-/

namespace Relocation

namespace Manifest

/-- A declaration of a manifest with its number, the name it goes by and what it stands in. -/
structure Placed where
  id : DeclId
  entry : DeclEntry
  name : String
  parent : Parent

def Placed.head (placed : Placed) : DeclHead := placed.entry.head

/-- A constructor without a name takes that of the declaration around it. -/
def DeclHead.nameIn (head : DeclHead) (owner : Option String) : String :=
  match owner with
  | some owner => if head.kind = .constructor ∧ head.name = "" then owner else head.name
  | none => head.name

mutual

/-- A declaration and all that is nested in it, numbered from `first`. -/
def DeclEntry.place (parent : Parent) (owner : Option String) (first : Nat) :
    DeclEntry → List Placed
  | .node head members =>
    let name := head.nameIn owner
    ⟨⟨first⟩, .node head members, name, parent⟩ ::
      placeAll (.decl ⟨first⟩) (some name) (first + 1) members

def placeAll (parent : Parent) (owner : Option String) (first : Nat) : List DeclEntry → List Placed
  | [] => []
  | entry :: rest =>
    let placed := entry.place parent owner first
    placed ++ placeAll parent owner (first + placed.length) rest

end

/-- The declarations of files, the files numbered from `home`. -/
def placeFiles (home first : Nat) : List FileEntry → List Placed
  | [] => []
  | e :: rest =>
    let placed := placeAll (.file ⟨home⟩) none first e.declarations
    placed ++ placeFiles (home + 1) (first + placed.length) rest

namespace Placed

/-- The declaration as it is made, with nothing of its signature and without members. -/
def declaration (placed : Placed) : Declaration where
  name := placed.name
  kind := placed.head.kind
  parent := placed.parent
  visibility := placed.head.visibility.getD .pub
  modality := placed.head.modality.getD .final
  language := placed.head.language.getD .source
  flags := placed.head.flags

end Placed

mutual

theorem ids_place (parent : Parent) (owner : Option String) (first : Nat) :
    ∀ entry : DeclEntry, (entry.place parent owner first).map Placed.id =
      (List.range' first (entry.place parent owner first).length).map DeclId.mk
  | .node head members => by
    unfold DeclEntry.place
    simp only [List.map_cons, List.length_cons, List.range'_succ]
    rw [ids_placeAll]

theorem ids_placeAll (parent : Parent) (owner : Option String) (first : Nat) :
    ∀ entries : List DeclEntry, (placeAll parent owner first entries).map Placed.id =
      (List.range' first (placeAll parent owner first entries).length).map DeclId.mk
  | [] => rfl
  | entry :: rest => by
    unfold placeAll
    simp only [List.map_append, List.length_append]
    rw [ids_place, ids_placeAll, ← List.range'_append_1, List.map_append]

end

theorem ids_placeFiles (home first : Nat) (files : List FileEntry) :
    (placeFiles home first files).map Placed.id =
      (List.range' first (placeFiles home first files).length).map DeclId.mk := by
  induction files generalizing home first with
  | nil => rfl
  | cons e rest inductionHypothesis =>
    unfold placeFiles
    simp only [List.map_append, List.length_append]
    rw [ids_placeAll, inductionHypothesis, ← List.range'_append_1, List.map_append]

mutual

def DeclEntry.nested : DeclEntry → List DeclEntry
  | .node head members => .node head members :: nestedAll members

def nestedAll : List DeclEntry → List DeclEntry
  | [] => []
  | entry :: rest => entry.nested ++ nestedAll rest

end

mutual

theorem entries_place (parent : Parent) (owner : Option String) (first : Nat) :
    ∀ entry : DeclEntry, (entry.place parent owner first).map Placed.entry = entry.nested
  | .node head members => by
    unfold DeclEntry.place DeclEntry.nested
    rw [List.map_cons, entries_placeAll]

theorem entries_placeAll (parent : Parent) (owner : Option String) (first : Nat) :
    ∀ entries : List DeclEntry,
      (placeAll parent owner first entries).map Placed.entry = nestedAll entries
  | [] => rfl
  | entry :: rest => by
    unfold placeAll nestedAll
    rw [List.map_append, entries_place, entries_placeAll]

end

theorem entries_placeFiles (home first : Nat) (files : List FileEntry) :
    (placeFiles home first files).map Placed.entry =
      files.flatMap fun e => nestedAll e.declarations := by
  induction files generalizing home first with
  | nil => rfl
  | cons e rest inductionHypothesis =>
    unfold placeFiles
    rw [List.map_append, entries_placeAll, inductionHypothesis, List.flatMap_cons]

def holders (placed : List Placed) (key : String) : List DeclId :=
  (placed.filter fun one => one.head.id == some key).map Placed.id

def firstNamed (p : Project) (placed : List Placed) (key : String) : Option DeclId :=
  (placed.map Placed.id).find? fun id => (p.qualifiedName id).text == key

theorem holders_append (one other : List Placed) (key : String) :
    holders (one ++ other) key = holders one key ++ holders other key := by
  simp [holders]

theorem firstNamed_append (p : Project) (one other : List Placed) (key : String) :
    firstNamed p (one ++ other) key = (firstNamed p one key).or (firstNamed p other key) := by
  simp [firstNamed, List.find?_append]

def inside (parent : Parent) (placed : List Placed) : List Placed :=
  placed.filter fun one => one.parent == parent

variable (m : Manifest)

def outline : List Placed := placeFiles 0 0 m.files

def childrenOf (parent : Parent) : List DeclId :=
  (inside parent m.outline).map Placed.id

def withId (key : String) : List DeclId := holders m.outline key

end Manifest

end Relocation
