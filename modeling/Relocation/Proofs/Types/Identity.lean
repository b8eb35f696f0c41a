import Relocation.Proofs.Steps
import Relocation.Proofs.Types.Unfolding
set_option autoImplicit false

/-!
Types taken from a table call by call, from an empty one.

A call may name the types that earlier calls have returned, and the two top types. Then a table has an
entry for each identifier that is known and no other, no shape twice, and the arguments of every entry
before it. So an identifier is the type that it stands for: it is written out as one tree for good,
and no other identifier is written out so.
-/

namespace Relocation

def TypeArg.id? : TypeArg → Option TypeId
  | .star => none
  | .type _ id => some id

/-- A call that takes a type from a table. -/
inductive TypeCall where
  | intern (shape : TypeShape)
  | classType (decl : DeclId)
  | paramType (decl : DeclId)
  | nullable (id : TypeId)

deriving instance DecidableEq for TypeTable

/-- A table in use, and the identifiers that calls have returned so far, the last one first. -/
structure TypeSession where
  table : TypeTable := .empty
  returned : List TypeId := []
  deriving DecidableEq

namespace TypeSession

/-- The top types are known from the start, the others once they have been returned. -/
def knows (s : TypeSession) (id : TypeId) : Bool :=
  id == TypeTable.any || id == TypeTable.nullableAny || s.returned.contains id

end TypeSession

namespace TypeCall

def named : TypeCall → List TypeId
  | intern shape => shape.arguments.filterMap TypeArg.id?
  | classType _ | paramType _ => []
  | nullable id => [id]

def isReady (s : TypeSession) (call : TypeCall) : Bool := call.named.all s.knows

def shape (t : TypeTable) : TypeCall → TypeShape
  | intern shape => shape
  | classType decl => .applied decl [] false
  | paramType decl => .param decl false
  | nullable id => (t.get id).asNullable

def perform (t : TypeTable) : TypeCall → TypeId × TypeTable
  | intern shape => t.intern shape
  | classType decl => t.classType decl
  | paramType decl => t.paramType decl
  | nullable id => t.nullable id

theorem perform_eq (t : TypeTable) (call : TypeCall) :
    call.perform t = t.intern (call.shape t) := by
  cases call <;> rfl

end TypeCall

namespace TypeSession

/-- The session after a call. A call that names a type that is not known fails. -/
def next? (s : TypeSession) (call : TypeCall) : Option TypeSession :=
  if call.isReady s then
    some ⟨(call.perform s.table).2, (call.perform s.table).1 :: s.returned⟩
  else none

def run? (s : TypeSession) (calls : List TypeCall) : Option TypeSession := calls.foldlM next? s

structure Sound (s : TypeSession) : Prop where
  ordered : s.table.Ordered
  distinct : s.table.shapes.toList.Nodup
  known : ∀ id, s.knows id = true ↔ id.index < s.table.shapes.size

end TypeSession

namespace TypeTable

variable {t : TypeTable}

theorem nodup_intern (distinct : t.shapes.toList.Nodup) (shape : TypeShape) :
    (t.intern shape).2.shapes.toList.Nodup := by
  unfold TypeTable.intern
  split
  · exact distinct
  next missing =>
    rw [idxOf?_shapes, List.idxOf?_eq_none_iff] at missing
    rw [Array.toList_push, ← List.concat_eq_append, List.nodup_concat]
    exact ⟨missing, distinct⟩

theorem lt_size_intern_iff (t : TypeTable) (shape : TypeShape) (id : TypeId) :
    id.index < (t.intern shape).2.shapes.size ↔
      id.index < t.shapes.size ∨ id = (t.intern shape).1 := by
  have returned := (t.holds_intern shape).lt_size
  unfold TypeTable.intern at returned ⊢
  split at returned
  · rw [iff_self_or]
    rintro rfl
    exact returned
  · rcases id with ⟨index⟩
    rw [Array.size_push, TypeId.mk.injEq]
    exact Nat.lt_succ_iff_lt_or_eq

theorem intern_get (distinct : t.shapes.toList.Nodup) {id : TypeId}
    (inside : id.index < t.shapes.size) : t.intern (t.get id) = (id, t) := by
  have entry := getElem?_of_lt inside
  have listed : t.get id ∈ t.shapes.toList := by
    apply List.mem_of_getElem?
    rw [Array.getElem?_toList, entry]
  cases found : t.shapes.toList.idxOf? (t.get id) with
  | none => exact absurd listed (List.idxOf?_eq_none_iff.mp found)
  | some index =>
    have holds : t.Holds (t.get id) ⟨index⟩ := found
    rw [holds.intern, eq_of_same_shape distinct holds.getElem? entry]

end TypeTable

namespace TypeSession

variable {s later : TypeSession}

theorem knows_iff {id : TypeId} :
    s.knows id = true ↔
      id = TypeTable.any ∨ id = TypeTable.nullableAny ∨ id ∈ s.returned := by
  simp [knows, or_assoc]

theorem Sound.args_lt_size (sound : s.Sound) {call : TypeCall} (ready : call.isReady s = true)
    {variance : Variance} {id : TypeId}
    (listed : .type variance id ∈ (call.shape s.table).arguments) :
    id.index < s.table.shapes.size := by
  have known : ∀ id ∈ call.named, id.index < s.table.shapes.size := by
    intro id named
    exact (sound.known id).mp (List.all_eq_true.mp ready id named)
  cases call with
  | intern shape => exact known id (List.mem_filterMap.mpr ⟨_, listed, rfl⟩)
  | classType decl | paramType decl => cases listed
  | nullable type =>
    have inside := known type (List.mem_singleton_self type)
    have entry := TypeTable.getElem?_of_lt inside
    have same : (s.table.get type).asNullable.arguments = (s.table.get type).arguments := by
      cases s.table.get type <;> rfl
    rw [TypeCall.shape, same] at listed
    exact Nat.lt_trans (sound.ordered.args type.index _ entry variance id listed) inside

/-- The table after a call holds the shape that the call asked for. -/
theorem Sound.next (sound : s.Sound) {call : TypeCall} (called : s.next? call = some later) :
    later.Sound := by
  obtain ⟨ready, made⟩ := Option.ite_none_right_eq_some.mp called
  rw [TypeCall.perform_eq] at made
  cases made
  constructor
  · apply sound.ordered.intern
    intro variance id listed
    exact sound.args_lt_size ready listed
  · exact TypeTable.nodup_intern sound.distinct _
  · intro id
    have before := sound.known id
    rw [knows_iff] at before
    rw [knows_iff, TypeTable.lt_size_intern_iff, ← before, List.mem_cons]
    tauto

theorem grows_next {call : TypeCall} (called : s.next? call = some later) :
    s.table.Grows later.table := by
  obtain ⟨-, made⟩ := Option.ite_none_right_eq_some.mp called
  rw [TypeCall.perform_eq] at made
  cases made
  exact TypeTable.grows_intern _ _

theorem Sound.run (sound : s.Sound) {calls : List TypeCall} (made : s.run? calls = some later) :
    later.Sound := by
  apply foldlM_some_induction sound ?_ made
  intro before call after sound called
  exact sound.next called

theorem grows_run {calls : List TypeCall} (made : s.run? calls = some later) :
    s.table.Grows later.table := by
  apply foldlM_some_induction (motive := fun later => s.table.Grows later.table)
    (TypeTable.Grows.refl s.table) ?_ made
  intro before call after grows called
  exact grows.trans (grows_next called)

theorem sound_empty : ({} : TypeSession).Sound where
  ordered := TypeTable.ordered_empty
  distinct := by decide
  known := by
    rintro ⟨index⟩
    simp only [knows_iff, List.not_mem_nil, or_false, TypeTable.any, TypeTable.nullableAny,
      TypeId.mk.injEq]
    change index = 0 ∨ index = 1 ↔ index < 2
    omega

theorem knows_of_grows (sound : s.Sound) (laterSound : later.Sound)
    (grows : s.table.Grows later.table) {id : TypeId} (known : s.knows id = true) :
    later.knows id = true := by
  rw [laterSound.known]
  exact Nat.lt_of_lt_of_le ((sound.known id).mp known) grows.size_le

theorem asNullable_asNullable (shape : TypeShape) :
    shape.asNullable.asNullable = shape.asNullable := by
  cases shape <;> rfl

theorem Sound.nullable (sound : s.Sound) {id result : TypeId} {table : TypeTable}
    (known : s.knows id = true) (made : s.table.nullable id = (result, table)) :
    table.tree result = (s.table.tree id).asNullable ∧ table.nullable result = (result, table) := by
  have inside := (sound.known id).mp known
  have called : s.next? (.nullable id) = some ⟨table, result :: s.returned⟩ := by
    simp [next?, TypeCall.isReady, TypeCall.named, TypeCall.perform, known, made]
  have after := sound.next called
  have grows := grows_next called
  have holds : table.Holds (s.table.get id).asNullable result := by
    have held := s.table.holds_intern (s.table.get id).asNullable
    rw [TypeTable.nullable] at made
    rwa [made] at held
  have unfolds := (sound.ordered.unfolds_iff inside).mpr rfl
  constructor
  · have kept : table.get id = s.table.get id :=
      TypeTable.get_eq_of_getElem? (grows.getElem? (TypeTable.getElem?_of_lt inside))
    have written := (unfolds.grow grows).asNullable (kept ▸ holds.getElem?)
    exact ((after.ordered.unfolds_iff holds.lt_size).mp written).symm
  · rw [TypeTable.nullable, holds.get, asNullable_asNullable]
    exact holds.intern

/-- The identifiers that a session knows are the types that they stand for. -/
structure IdentifiesTypes (s : TypeSession) : Prop where
  /-- What a call returns has the shape that it asks for. -/
  shape : ∀ call : TypeCall,
    (call.perform s.table).2.get (call.perform s.table).1 = call.shape s.table
  /-- An identifier has an entry, and its shape gives the identifier back. -/
  entry : ∀ id, s.knows id = true →
    id.index < s.table.shapes.size ∧ s.table.intern (s.table.get id) = (id, s.table)
  /-- Whatever is called later, an identifier is known, keeps its shape and is written out as
  before. -/
  kept : ∀ calls later, s.run? calls = some later → ∀ id, s.knows id = true →
    later.knows id = true ∧ later.table.get id = s.table.get id ∧
      later.table.tree id = s.table.tree id
  /-- The arguments of a type are known, and stand before it. -/
  args : ∀ id, s.knows id = true → ∀ variance arg,
    .type variance arg ∈ (s.table.get id).arguments → s.knows arg = true ∧ arg.index < id.index
  /-- Writing a type out ends, in one tree. -/
  unfolds : ∀ id, s.knows id = true → ∀ tree, s.table.Unfolds id tree ↔ tree = s.table.tree id
  /-- So does describing it: the text is that of its entry, in terms of the texts of arguments. -/
  text : ∀ p : Project, p.types = s.table → ∀ id, s.knows id = true → ∀ qualified,
    p.describeType id qualified = p.describeShape qualified (s.table.get id)
  same : ∀ one other, s.knows one = true → s.knows other = true →
    (one = other ↔ s.table.tree one = s.table.tree other)
  /-- The nullable form of a type differs from it in the outermost mark, and is its own nullable
  form. -/
  nullable : ∀ id, s.knows id = true → ∀ result table, s.table.nullable id = (result, table) →
    table.tree result = (s.table.tree id).asNullable ∧ table.nullable result = (result, table)

/-- After any calls on a new table, identifiers are types. -/
theorem ids_identify_types {calls : List TypeCall} {s : TypeSession}
    (made : run? {} calls = some s) : s.IdentifiesTypes := by
  have sound := sound_empty.run made
  have inside (id : TypeId) (known : s.knows id = true) : id.index < s.table.shapes.size :=
    (sound.known id).mp known
  constructor
  · intro call
    rw [TypeCall.perform_eq]
    exact (s.table.holds_intern _).get
  · intro id known
    exact ⟨inside id known, TypeTable.intern_get sound.distinct (inside id known)⟩
  · intro calls later further id known
    have grows := grows_run further
    have laterSound := sound.run further
    have unfolds := (sound.ordered.unfolds_iff (inside id known)).mpr rfl
    refine ⟨knows_of_grows sound laterSound grows known, ?_, ?_⟩
    · apply TypeTable.get_eq_of_getElem?
      exact grows.getElem? (TypeTable.getElem?_of_lt (inside id known))
    · have later := unfolds.grow grows
      exact ((laterSound.ordered.unfolds_iff later.lt_size).mp later).symm
  · intro id known variance arg listed
    have entry := TypeTable.getElem?_of_lt (inside id known)
    have before := sound.ordered.args id.index _ entry variance arg listed
    exact ⟨(sound.known arg).mpr (Nat.lt_trans before (inside id known)), before⟩
  · intro id known tree
    exact sound.ordered.unfolds_iff (inside id known)
  · rintro p types id known qualified
    rw [← types] at inside ⊢
    exact Project.describeType_eq (types ▸ sound.ordered) (inside id known)
  · intro one other known otherKnown
    exact (sound.ordered.tree_eq_iff sound.distinct (inside one known)
      (inside other otherKnown)).symm
  · intro id known result table made
    exact sound.nullable known made

/-- A class, a type parameter, a generic class of both, and twice the nullable form of that. -/
def pairCalls : List TypeCall := [
  .classType ⟨0⟩, .paramType ⟨1⟩,
  .intern (.applied ⟨2⟩ [.type .out ⟨2⟩, .star, .type .invariant ⟨3⟩] false),
  .nullable ⟨4⟩, .nullable ⟨5⟩]

def pairSession : TypeSession where
  table := ⟨#[.any false, .any true, .applied ⟨0⟩ [] false, .param ⟨1⟩ false,
    .applied ⟨2⟩ [.type .out ⟨2⟩, .star, .type .invariant ⟨3⟩] false,
    .applied ⟨2⟩ [.type .out ⟨2⟩, .star, .type .invariant ⟨3⟩] true]⟩
  returned := [⟨5⟩, ⟨5⟩, ⟨4⟩, ⟨3⟩, ⟨2⟩]

theorem ids_identify_pair : run? {} pairCalls = some pairSession ∧ pairSession.IdentifiesTypes ∧
    pairSession.table.tree ⟨5⟩ = .applied ⟨2⟩ [.type .out (.applied ⟨0⟩ [] false), .star,
      .type .invariant (.param ⟨1⟩ false)] true := by
  have made : run? {} pairCalls = some pairSession := by decide +kernel
  exact ⟨made, ids_identify_types made, rfl⟩

end TypeSession

end Relocation
