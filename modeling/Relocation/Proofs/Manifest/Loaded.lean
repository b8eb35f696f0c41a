import Relocation.Proofs.Manifest.Declared
import Relocation.Proofs.Manifest.Enclosure
import Relocation.Proofs.Manifest.Signature
set_option autoImplicit false

/-!
A loaded project against its manifest. Loading neither loses, duplicates nor reorders declarations:
they are those of the outline, each as its entry says, and what a declaration or a file lists is what
stands directly in it, in the order of the text.
-/

namespace Relocation.Manifest

open Loader (Signed Refers)

/-- What the loader knew once all declarations were made, and what has come of it. -/
structure Loaded (m : Manifest) (l : Loader) (p : Project) : Prop where
  outlined : Outlined m l
  refines : l.project.Refines p
  grown : l.project.Extends p
  signed : ∀ placed ∈ m.outline, Signed l.decls p placed.id placed.head
  types : p.types.Ordered
  references : List.Forall₂ (Refers l.declNamed) m.references p.references.toList

/-- A declaration of the project is as its entry says. -/
structure Placed.StandsIn (p : Project) (placed : Placed) : Prop where
  name : (p.decl placed.id).name = placed.name
  parent : (p.decl placed.id).parent = placed.parent
  kind : (p.decl placed.id).kind = placed.head.kind
  visibility : (p.decl placed.id).visibility = placed.head.visibility.getD .pub
  modality : (p.decl placed.id).modality = placed.head.modality.getD .final
  language : (p.decl placed.id).language = placed.head.language.getD .source
  flags : (p.decl placed.id).flags = placed.head.flags

variable {m : Manifest} {l : Loader} {p : Project}

namespace Outlined

variable (outlined : Outlined m l)
include outlined

theorem mem_declIds {placed : Placed} (listed : placed ∈ m.outline) :
    placed.id ∈ l.project.declIds := by
  rw [← outlined.ids]
  exact List.mem_map_of_mem listed

/-- A declaration is what its entry makes of it, but for what it lists. -/
theorem decl_eq {placed : Placed} (listed : placed ∈ m.outline) :
    ∃ members, l.project.decl placed.id = { placed.declaration with members } := by
  have all := outlined.bare
  rw [Project.bare, ← outlined.ids, List.map_map] at all
  have same := List.map_inj_left.mp all placed listed
  exact ⟨(l.project.decl placed.id).members,
    congrArg (fun data => { data with members := (l.project.decl placed.id).members }) same⟩

theorem nodup_pending : (l.pending.map Prod.fst).Nodup := by
  have ids := outlined.pending.map Prod.fst
  rw [List.map_map] at ids
  apply ids.nodup_iff.mpr
  have distinct : l.project.declIds.Nodup := by
    apply List.nodup_range.map
    intro one other same
    exact DeclId.mk.inj same
  rwa [← outlined.ids] at distinct

theorem mem_outline_of_pending {waiting : DeclId × DeclHead} (listed : waiting ∈ l.pending) :
    ∃ placed ∈ m.outline, waiting = (placed.id, placed.head) := by
  obtain ⟨placed, member, same⟩ := List.mem_map.mp (outlined.pending.mem_iff.mp listed)
  exact ⟨placed, member, same.symm⟩

end Outlined

theorem Outlined.unsigned (outlined : Outlined m l) {placed : Placed}
    (listed : placed ∈ m.outline) :
    (l.project.decl placed.id).unsigned = l.project.decl placed.id := by
  obtain ⟨members, same⟩ := outlined.decl_eq listed
  rw [same]
  rfl

theorem loaded_of_load (returned : load m = .ok p) :
    ∃ l, declared m = .ok l ∧ Loaded m l p := by
  obtain ⟨l, resolved, last, made, heads, references, rfl⟩ := load_eq_ok.mp returned
  have outlined := outlined_of_declared made
  have step := (sound_of_declared made).resolveHeads heads
  have further := step.sound.foldlM (fun _ _ _ sound => sound.addReference) references
  refine ⟨l, made, ?_⟩
  unfold Loader.resolveHeads at heads
  obtain ⟨project, folded, done⟩ := bind_eq_ok.mp heads
  cases done
  obtain ⟨writes, signed⟩ := Loader.signed_resolveHeads outlined.nodup_pending
    (by
      intro waiting listed
      obtain ⟨placed, member, rfl⟩ := outlined.mem_outline_of_pending listed
      exact outlined.mem_declIds member)
    (by
      intro waiting listed
      obtain ⟨placed, member, rfl⟩ := outlined.mem_outline_of_pending listed
      exact outlined.unsigned member) folded
  obtain ⟨added, rfl, refer⟩ := Loader.refers_addReferences
    (writes.references.trans outlined.noReferences) references
  have refines : project.Refines { project with references := added } :=
    ⟨rfl, fun _ => rfl, rfl, rfl, TypeTable.Grows.refl _⟩
  have types : l.project.types.Ordered := outlined.noTypes ▸ TypeTable.ordered_empty
  refine ⟨outlined, writes.refines.trans refines, step.grown.trans further.grown, ?_,
    writes.ordered types, refer⟩
  intro placed listed
  have waiting : (placed.id, placed.head) ∈ l.pending := by
    apply outlined.pending.mem_iff.mpr
    exact List.mem_map_of_mem listed
  exact (signed _ waiting).refine refines rfl

namespace Loaded

variable (loaded : Loaded m l p)
include loaded

theorem declIds : p.declIds = m.outline.map Placed.id := by
  rw [loaded.refines.declIds, loaded.outlined.ids]

theorem standsIn {placed : Placed} (listed : placed ∈ m.outline) : placed.StandsIn p := by
  obtain ⟨members, same⟩ := loaded.outlined.decl_eq listed
  have field {α : Type} (field : Declaration → α)
      (outside : ∀ data, field data.unsigned = field data) :
      field (p.decl placed.id) = field { placed.declaration with members } := by
    rw [loaded.refines.field field outside, same]
  exact {
    name := field Declaration.name fun _ => rfl
    parent := field Declaration.parent fun _ => rfl
    kind := field Declaration.kind fun _ => rfl
    visibility := field Declaration.visibility fun _ => rfl
    modality := field Declaration.modality fun _ => rfl
    language := field Declaration.language fun _ => rfl
    flags := field Declaration.flags fun _ => rfl }

theorem children (parent : Parent) : p.children parent = m.childrenOf parent := by
  unfold Project.children childrenOf inside
  rw [loaded.declIds, List.filter_map]
  congr 1
  apply List.filter_congr
  intro placed listed
  exact congrArg (· == parent) (loaded.standsIn listed).parent

theorem files : List.Forall₂ (IsFile l.dirAt p) m.files p.fileIds := by
  have sameFile : p.file = l.project.file := by
    funext file
    simp [Project.file, loaded.refines.files]
  have sameIds : p.fileIds = l.project.fileIds := by simp [Project.fileIds, loaded.refines.files]
  rw [sameIds]
  exact loaded.outlined.files.imp fun e file isFile => by simpa [IsFile, sameFile] using isFile

end Loaded

/-- A project has the declarations of a manifest and no others. -/
structure AsWritten (m : Manifest) (p : Project) : Prop where
  /-- They are numbered in the order of the text. -/
  ids : p.declIds = m.outline.map Placed.id
  entries : m.outline.map Placed.entry = m.files.flatMap fun e => nestedAll e.declarations
  standsIn : ∀ placed ∈ m.outline, placed.StandsIn p
  members : ∀ owner, p.members owner = m.childrenOf (.decl owner)
  topLevel : ∀ file, p.topLevel file = m.childrenOf (.file file)
  /-- What stands in a declaration is what its entry lists, a constructor with the name of the
  declaration unless it has one. -/
  inDecl : ∀ placed ∈ m.outline, (inside (.decl placed.id) m.outline).map Placed.called =
    calledIn (some placed.name) placed.entry.members
  inFile : ∀ index e, m.files[index]? = some e →
    (inside (.file ⟨index⟩) m.outline).map Placed.called = calledIn none e.declarations
  files : List.Forall₂ (fun e file => (p.file file).name = e.name) m.files p.fileIds
  /-- Signatures are complete and in order, by the names that declarations got as they were made. -/
  signed : ∃ l, declared m = .ok l ∧
    ∀ placed ∈ m.outline, Signed l.decls p placed.id placed.head

/-- Loading makes every declaration of the manifest once, where it stands in the text, and gives it
the signature that it has there. -/
theorem asWritten_of_load (returned : load m = .ok p) : AsWritten m p := by
  obtain ⟨l, made, loaded⟩ := loaded_of_load returned
  have all := (built_of_load returned).listsAll
  exact {
    ids := loaded.declIds
    entries := entries_placeFiles 0 0 m.files
    standsIn := fun placed listed => loaded.standsIn listed
    members := fun owner => (all.members owner).trans (loaded.children _)
    topLevel := fun file => (all.topLevel file).trans (loaded.children _)
    inDecl := members_placeFiles 0 0 m.files
    inFile := by
      intro index e found
      have listed := inside_placeFiles found 0 0
      rwa [Nat.zero_add] at listed
    files := loaded.files.imp fun e file isFile => isFile.1
    signed := ⟨l, made, loaded.signed⟩ }

/-- Two classes with nested declarations, one of them generic, the other with a constructor that has
no name of its own. -/
def boxes : Manifest where
  modules := [{ name := "core", platform := .jvm }]
  directories := [{ path := "a", package := "a", module := some "core" }]
  files := [{ directory := "a", name := "Box.kt", declarations := [
    .node { kind := .plainClass, name := "Box" } [
      .node { kind := .typeParameter, name := "T" } [],
      .node { kind := .function, name := "put", params := [⟨"item", "T?"⟩] } []],
    .node { kind := .plainClass, name := "Crate", supertypes := ["a.Box< a.Crate >"] } [
      .node { kind := .function, name := "put", overrides := ["a.Box.put"],
              params := [⟨"item", "a.Crate"⟩] } [],
      .node { kind := .constructor } []]] }]

theorem asWritten_boxes : ∃ p, load boxes = .ok p ∧ AsWritten boxes p ∧
    p.members ⟨0⟩ = [⟨1⟩, ⟨2⟩] ∧ p.members ⟨3⟩ = [⟨4⟩, ⟨5⟩] ∧ (p.decl ⟨5⟩).name = "Crate" := by
  obtain ⟨p, returned, evaluated⟩ : ∃ p, load boxes = .ok p ∧
      p.members ⟨0⟩ = [⟨1⟩, ⟨2⟩] ∧ p.members ⟨3⟩ = [⟨4⟩, ⟨5⟩] ∧ (p.decl ⟨5⟩).name = "Crate" := by
    apply exists_eq_ok
    decide +kernel
  exact ⟨p, returned, asWritten_of_load returned, evaluated⟩

end Relocation.Manifest
