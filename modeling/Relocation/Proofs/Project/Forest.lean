import Relocation.Proofs.Project.Ascent
import Relocation.Proofs.Project.Children
set_option autoImplicit false

/-!
What is built is a forest.

Where a declaration lies is said twice: by the declaration and by the list of what it lies in. After
any calls of the builder both say the same, what is around a declaration was made before it, and so
every declaration has a way out to one file. References that are made from a declaration lie in that
file. No later call takes a declaration or a reference to another place.
-/

namespace Relocation

def BuilderCall.referrer? : BuilderCall → Option DeclId
  | .referenceFrom owner _ _ | .unresolved owner _ => some owner
  | _ => none

namespace Project

variable {p q : Project} {id : DeclId} {owners : List DeclId} {file : FileId}

/-- What is around a declaration comes before it, so it is in fewer declarations than there are
before it. -/
theorem Ordered.length_le (ordered : p.Ordered) (way : p.Ascends id owners file) :
    owners.length ≤ id.index := by
  induction way with
  | file parent => exact Nat.zero_le _
  | owner parent _ inductionHypothesis =>
    exact Nat.lt_of_le_of_lt inductionHypothesis (ordered.owner _ _ parent)

theorem Built.exists_ascends (built : p.Built) (known : id ∈ p.declIds) :
    ∃ owners, ∃ file ∈ p.fileIds, p.Ascends id owners file := by
  obtain ⟨index, same⟩ : ∃ index, id.index = index := ⟨_, rfl⟩
  induction index using Nat.strongRecOn generalizing id with
  | ind index inductionHypothesis =>
    cases parent : (p.decl id).parent with
    | file file => exact ⟨[], file, built.listed.mem_fileIds known parent, .file parent⟩
    | decl owner =>
      have before : owner.index < index := same ▸ built.ordered.owner id owner parent
      have declared := built.listed.owner id known owner parent
      obtain ⟨owners, file, there, way⟩ := inductionHypothesis owner.index before declared rfl
      exact ⟨owner :: owners, file, there, .owner parent way⟩

theorem Built.mem_fileIds_of_fileOf? (built : p.Built) (known : id ∈ p.declIds)
    (lies : p.fileOf? id = some file) : file ∈ p.fileIds := by
  obtain ⟨_, way, -⟩ := fileWithin_eq_some_iff.mp lies
  obtain ⟨_, home, there, out⟩ := built.exists_ascends known
  exact (way.unique out).2 ▸ there

/-- The search for the file of a new reference ends in it, however far it is. -/
theorem Built.homeFile_eq (built : p.Built) (way : p.Ascends id owners file)
    (known : id ∈ p.declIds) : p.homeFile id = file := by
  have short : owners.length < p.decls.size :=
    Nat.lt_of_le_of_lt (built.ordered.length_le way) ((mem_declIds p).mp known)
  rw [homeFile, fileWithin_eq_some_iff.mpr ⟨owners, way, short⟩, Option.getD_some]

theorem Keeps.ascends (keeps : p.Keeps q) (listed : p.Listed) (way : p.Ascends id owners file)
    (known : id ∈ p.declIds) : q.Ascends id owners file := by
  induction way with
  | file parent => exact .file ((keeps.parent _ known).trans parent)
  | owner parent _ inductionHypothesis =>
    have declared := listed.owner _ known _ parent
    exact .owner ((keeps.parent _ known).trans parent) (inductionHypothesis declared)

theorem Extends.homeFile (extension : p.Extends q) (built : p.Built) (known : id ∈ p.declIds) :
    q.homeFile id = p.homeFile id := by
  obtain ⟨owners, file, -, way⟩ := built.exists_ascends known
  have later := extension.keeps.ascends built.listed way known
  rw [built.homeFile_eq way known,
    (extension.built built).homeFile_eq later (extension.mem_declIds known)]

theorem mem_refIds {reference : RefId} :
    reference ∈ p.refIds ↔ reference.index < p.references.size := by
  rcases reference with ⟨index⟩
  simp [refIds]

/-- References of the one project are references of the other, with all that is said of them. -/
structure KeepsReferences (p q : Project) : Prop where
  known : ∀ reference ∈ p.refIds, reference ∈ q.refIds
  same : ∀ reference ∈ p.refIds, q.reference reference = p.reference reference

namespace KeepsReferences

theorem of_same (references : q.references = p.references) : p.KeepsReferences q where
  known := by
    intro reference known
    rwa [mem_refIds, references, ← mem_refIds]
  same := by
    intro reference _
    simp only [Project.reference, references]

theorem trans {r : Project} (first : p.KeepsReferences q) (second : q.KeepsReferences r) :
    p.KeepsReferences r where
  known := by
    intro reference known
    exact second.known reference (first.known reference known)
  same := by
    intro reference known
    rw [second.same reference (first.known reference known), first.same reference known]

theorem push (p : Project) (entry : Reference) :
    p.KeepsReferences { p with references := p.references.push entry } where
  known := by
    intro reference known
    rw [mem_refIds] at known ⊢
    rw [Array.size_push]
    exact Nat.lt_succ_of_lt known
  same := by
    intro reference known
    rw [mem_refIds] at known
    simp [Project.reference, Array.getD_eq_getD_getElem?, Array.getElem?_push, Nat.ne_of_lt known]

end KeepsReferences

theorem OneCall.keepsReferences (made : p.OneCall q) : p.KeepsReferences q := by
  cases made with
  | elsewhere _ _ references => exact .of_same references
  | file | edit => exact .of_same rfl
  | decl => exact .of_same (references_addDecl _)
  | reference => exact .push p _

theorem Extends.keepsReferences (extension : p.Extends q) : p.KeepsReferences q := by
  obtain ⟨calls, made⟩ := extension
  apply run?_induction (KeepsReferences.of_same rfl) ?_ made
  intro before call kept ready
  exact kept.trans (call.oneCall ready).keepsReferences

theorem exists_of_run?_append {early late : List BuilderCall} {call : BuilderCall}
    (made : p.run? (early ++ call :: late) = some q) :
    ∃ before, p.run? early = some before ∧ call.isReady before = true ∧
      (call.perform before).Extends q := by
  simp only [run?, List.foldlM_append, List.foldlM_cons, Option.bind_eq_bind,
    Option.bind_eq_some_iff] at made
  obtain ⟨before, first, after, called, last⟩ := made
  obtain ⟨ready, called⟩ := Option.ite_none_right_eq_some.mp called
  cases called
  exact ⟨before, first, ready, late, last⟩

theorem reference_perform {call : BuilderCall} {owner : DeclId}
    (refers : call.referrer? = some owner) :
    p.nextRef ∈ (call.perform p).refIds ∧
      ((call.perform p).reference p.nextRef).owner = some owner ∧
      ((call.perform p).reference p.nextRef).file = p.homeFile owner := by
  cases call with
  | referenceFrom other target flags =>
    cases refers
    simp [BuilderCall.perform, addReferenceFrom, addReference, mem_refIds, Project.reference, nextRef]
  | unresolved other text =>
    cases refers
    simp [BuilderCall.perform, addUnresolved, addReference, mem_refIds, Project.reference, nextRef,
      Array.getElem_modify]
  | _ => cases refers

theorem BuilderCall.mem_declIds_of_referrer? {call : BuilderCall} {owner : DeclId}
    (refers : call.referrer? = some owner) (ready : call.isReady p = true) : owner ∈ p.declIds := by
  cases call with
  | referenceFrom other target flags =>
    cases refers
    simp only [BuilderCall.isReady, Bool.and_eq_true, List.contains_iff_mem] at ready
    exact ready.1
  | unresolved other text =>
    cases refers
    simpa only [BuilderCall.isReady, List.contains_iff_mem] using ready
  | _ => cases refers

/-- A list of all declarations that lie directly in `parent`, each once, in the order in which they
were made. -/
structure ListsInOrder (p : Project) (parent : Parent) (listed : List DeclId) : Prop where
  mem : ∀ id, id ∈ listed ↔ id ∈ p.declIds ∧ (p.decl id).parent = parent
  sorted : listed.Pairwise fun one other => one.index < other.index

theorem listsInOrder_children (p : Project) (parent : Parent) :
    p.ListsInOrder parent (p.children parent) where
  mem := by
    intro id
    rw [children, List.mem_filter, beq_iff_eq]
  sorted := by
    apply List.Pairwise.filter
    apply List.pairwise_lt_range.map
    exact fun _ _ before => before

/-- What calls make is a forest, and holds the references that they make where these belong. -/
structure MakesForest (calls : List BuilderCall) (p : Project) : Prop where
  owner : ∀ id owner, (p.decl id).parent = .decl owner →
    owner ∈ p.declIds ∧ owner.index < id.index
  members : ∀ owner, p.ListsInOrder (.decl owner) (p.members owner)
  topLevel : ∀ file, p.ListsInOrder (.file file) (p.topLevel file)
  /-- A declaration has one way out. It leads to the file that the search without a limit finds. -/
  home : ∀ id ∈ p.declIds, p.homeFile id ∈ p.fileIds ∧
    ∃ owners, ∀ others file, p.Ascends id others file ↔ others = owners ∧ file = p.homeFile id
  /-- A call that makes a reference in a declaration makes the next one. In the end the reference
  lies in the file of the declaration. -/
  references : ∀ early call late, calls = early ++ call :: late → ∀ owner,
    call.referrer? = some owner → ∃ before, run? {} early = some before ∧
      before.nextRef ∈ p.refIds ∧ owner ∈ p.declIds ∧
      (p.reference before.nextRef).owner = some owner ∧
      (p.reference before.nextRef).file = p.homeFile owner

theorem built_as_forest {calls : List BuilderCall} {p : Project} (made : run? {} calls = some p) :
    p.MakesForest calls := by
  have built : p.Built := ⟨calls, made⟩
  constructor
  · intro id owner parent
    have declared := built.listed.owner id (mem_declIds_of_owner parent) owner parent
    exact ⟨declared, built.ordered.owner id owner parent⟩
  · intro owner
    rw [built.listsAll.members]
    exact p.listsInOrder_children _
  · intro file
    rw [built.listsAll.topLevel]
    exact p.listsInOrder_children _
  · intro id known
    obtain ⟨owners, file, there, way⟩ := built.exists_ascends known
    rw [built.homeFile_eq way known]
    refine ⟨there, owners, ?_⟩
    intro others other
    constructor
    · intro second
      exact second.unique way
    · rintro ⟨rfl, rfl⟩
      exact way
  · rintro early call late rfl owner refers
    obtain ⟨before, first, ready, later⟩ := exists_of_run?_append made
    have builtBefore : before.Built := ⟨early, first⟩
    have known := BuilderCall.mem_declIds_of_referrer? refers ready
    have grown := (Extends.call call ready).trans later
    obtain ⟨listed, owned, placed⟩ := reference_perform (p := before) refers
    have kept := later.keepsReferences
    refine ⟨before, first, kept.known _ listed, grown.mem_declIds known, ?_, ?_⟩
    · rw [kept.same _ listed, owned]
    · rw [kept.same _ listed, placed, grown.homeFile builtBefore known]

/-- A class with a function in it, to which another class is added behind the function of another
file. Both functions make a reference; the second one resolves to nothing. -/
def gardenCalls : List BuilderCall := [
  .module "core" .jvm, .directory "a" (.module ⟨0⟩ false) ⟨"a"⟩,
  .file ⟨0⟩ "Rose.kt" none, .file ⟨0⟩ "Bed.kt" none,
  .decl { name := "Rose", kind := .plainClass, parent := .file ⟨0⟩ },
  .decl { name := "bloom", kind := .function, parent := .decl ⟨0⟩ },
  .decl { name := "plant", kind := .function, parent := .file ⟨1⟩ },
  .referenceFrom ⟨1⟩ ⟨0⟩ {}, .internedType (.applied ⟨0⟩ [] false),
  .decl { name := "Bud", kind := .plainClass, parent := .decl ⟨0⟩ },
  .supertype ⟨3⟩ ⟨2⟩, .unresolved ⟨2⟩ "water"]

def garden : Project := (run? {} gardenCalls).getD {}

theorem built_as_garden : run? {} gardenCalls = some garden ∧ garden.MakesForest gardenCalls ∧
    garden.members ⟨0⟩ = [⟨1⟩, ⟨3⟩] ∧ garden.homeFile ⟨3⟩ = ⟨0⟩ ∧
    (garden.reference ⟨1⟩).file = ⟨1⟩ := by
  have made : run? {} gardenCalls = some garden := rfl
  exact ⟨made, built_as_forest made, by decide +kernel, by decide +kernel, by decide +kernel⟩

end Project

end Relocation
