import Mathlib.Logic.Relation
import Relocation.Check.SealedHierarchy
import Relocation.Proofs.Project.Search
import Relocation.Proofs.Walk
set_option autoImplicit false

/-!
Sealed hierarchies of a project: the connected components of the links between sealed classes and
their direct inheritors.

The neighbours at which a walk looks are these links, but only in projects whose superclasses and
kinds are as the language has them. The walk asks for one superclass and for interfaces, so a
second superclass or a sealed object would be passed over.
-/

namespace Relocation

namespace Project

variable (p : Project)

/-- One of the two is sealed and a direct supertype of the other. -/
def Linked (a b : DeclId) : Prop :=
  ((p.decl a).isSealed = true ∧ a ∈ p.supertypeDecls b) ∨
    ((p.decl b).isSealed = true ∧ b ∈ p.supertypeDecls a)

instance (a b : DeclId) : Decidable (p.Linked a b) := by
  unfold Linked
  infer_instance

def Joined (id : DeclId) : Prop := ∃ other, p.Linked id other

def SameHierarchy : DeclId → DeclId → Prop := Relation.ReflTransGen p.Linked

/-- The class of the hierarchy of `id` that comes first among some elements. -/
def Enters (elements : List DeclId) (id entry : DeclId) : Prop :=
  ∃ before after, elements = before ++ entry :: after ∧
    (p.decl entry).kind.isClassLike = true ∧ p.SameHierarchy id entry ∧
    ∀ other ∈ before, (p.decl other).kind.isClassLike = true → ¬ p.SameHierarchy id other

def IsAbout (id : DeclId) (finding : Finding) : Prop :=
  ∃ member, finding.1 = .decl member ∧ p.SameHierarchy id member

/-- Another source class of the hierarchy of `id`. -/
structure Companion (id other : DeclId) : Prop where
  same : p.SameHierarchy id other
  source : (p.decl other).language = .source
  ne : other ≠ id

/-- Declarations that have all of a hierarchy if they have any of it. -/
def WholeHierarchies (ids : List DeclId) : Prop :=
  ∀ id ∈ ids, ∀ other, p.SameHierarchy id other → other ∈ ids

/-- Declarations that have all of the hierarchy of `id` if they have any of it. -/
def TakenWhole (ids : List DeclId) (id : DeclId) : Prop :=
  ∀ member ∈ ids, p.SameHierarchy id member → ∀ other, p.SameHierarchy id other → other ∈ ids

/-- A hierarchy through which a walk can go from any of its classes. Upwards a walk asks for one
superclass and for interfaces, and it collects no more members than the limit. -/
structure Walkable (id : DeclId) : Prop where
  upwards : ∀ member, p.SameHierarchy id member → ∀ parent ∈ p.supertypeDecls member,
    (p.decl parent).isSealed = true →
      p.superclass? member = some parent ∨ (p.decl parent).kind = .interface
  limited : ∀ members : List DeclId, members.Nodup →
    (∀ member ∈ members, p.SameHierarchy id member) → members.length ≤ hierarchyLimit

/-- A project whose sealed hierarchies are those of the language, and not too large. -/
structure PlainHierarchies : Prop where
  fromSource : ∀ a ∈ p.declIds, ∀ b ∈ p.declIds, p.Linked a b → (p.decl a).language = .source
  oneSuperclass : ∀ id ∈ p.declIds, ∀ a ∈ p.supertypeDecls id, ∀ b ∈ p.supertypeDecls id,
    (p.decl a).kind = .plainClass → (p.decl b).kind = .plainClass → a = b
  sealedKind : ∀ id ∈ p.declIds, (p.decl id).isSealed = true →
    (p.decl id).kind = .plainClass ∨ (p.decl id).kind = .interface
  irreflexive : ∀ id ∈ p.declIds, id ∉ p.supertypeDecls id
  limited : ∀ id, ∀ members : List DeclId, members.Nodup →
    (∀ member ∈ members, p.SameHierarchy id member) → members.length ≤ hierarchyLimit

variable {p}

theorem mem_declIds_of_isSealed {id : DeclId} (isSealed : (p.decl id).isSealed = true) :
    id ∈ p.declIds := by
  by_contra outside
  rw [p.decl_of_not_mem outside] at isSealed
  cases isSealed

theorem mem_declIds_of_supertype {id parent : DeclId} (declared : parent ∈ p.supertypeDecls id) :
    id ∈ p.declIds := by
  by_contra outside
  rw [supertypeDecls, p.decl_of_not_mem outside] at declared
  cases declared

theorem suffices_declDepth {next : DeclId → List DeclId}
    (inside : ∀ id, ∀ other ∈ next id, id ∈ p.declIds) (seen : List DeclId) :
    Walk.Suffices next p.declDepth seen := by
  refine ⟨p.declIds, ?_, ?_⟩
  · intro id neighbours
    obtain ⟨other, member⟩ := List.exists_mem_of_ne_nil _ neighbours
    exact inside id other member
  · have counted := p.length_declIds
    have filtered := List.length_filter_le (fun id => id ∉ seen) p.declIds
    unfold declDepth
    omega

namespace Linked

variable {a b : DeclId}

theorem symm (linked : p.Linked a b) : p.Linked b a := Or.symm linked

theorem inside (linked : p.Linked a b) : a ∈ p.declIds ∧ b ∈ p.declIds := by
  rcases linked with ⟨isSealed, declared⟩ | ⟨isSealed, declared⟩
  · exact ⟨mem_declIds_of_isSealed isSealed, mem_declIds_of_supertype declared⟩
  · exact ⟨mem_declIds_of_supertype declared, mem_declIds_of_isSealed isSealed⟩

end Linked

namespace SameHierarchy

variable {a b c : DeclId}

theorem refl (a : DeclId) : p.SameHierarchy a a := Relation.ReflTransGen.refl

theorem symm (same : p.SameHierarchy a b) : p.SameHierarchy b a := by
  induction same with
  | refl => exact refl a
  | tail _ linked inductionHypothesis =>
    exact Relation.ReflTransGen.head linked.symm inductionHypothesis

theorem trans (first : p.SameHierarchy a b) (second : p.SameHierarchy b c) :
    p.SameHierarchy a c :=
  Relation.ReflTransGen.trans first second

theorem of_linked (linked : p.Linked a b) : p.SameHierarchy a b :=
  Relation.ReflTransGen.single linked

theorem joined (same : p.SameHierarchy a b) (joined : p.Joined a) : p.Joined b := by
  cases same with
  | refl => exact joined
  | @tail before _ _ last => exact ⟨before, last.symm⟩

theorem joined_of_ne (same : p.SameHierarchy a b) (differ : b ≠ a) : p.Joined a := by
  rcases Relation.ReflTransGen.cases_head same with rfl | ⟨next, linked, -⟩
  · exact absurd rfl differ
  · exact ⟨next, linked⟩

theorem inside (same : p.SameHierarchy a b) : b = a ∨ b ∈ p.declIds := by
  cases same with
  | refl => exact Or.inl rfl
  | tail _ linked => exact Or.inr linked.inside.2

end SameHierarchy

theorem exists_enters {elements : List DeclId} {id element : DeclId} (listed : element ∈ elements)
    (classLike : (p.decl element).kind.isClassLike = true)
    (inside : p.SameHierarchy id element) : ∃ entry, p.Enters elements id entry := by
  induction elements with
  | nil => cases listed
  | cons first rest inductionHypothesis =>
    by_cases here : (p.decl first).kind.isClassLike = true ∧ p.SameHierarchy id first
    · exact ⟨first, [], rest, rfl, here.1, here.2, by simp⟩
    · have later : element ∈ rest := by
        rcases List.mem_cons.mp listed with rfl | later
        · exact absurd ⟨classLike, inside⟩ here
        · exact later
      obtain ⟨entry, before, after, split, shape, within, none⟩ := inductionHypothesis later
      refine ⟨entry, first :: before, after, by rw [split, List.cons_append], shape, within, ?_⟩
      intro other member otherShape same
      rcases List.mem_cons.mp member with rfl | member
      · exact here ⟨otherShape, same⟩
      · exact none other member otherShape same

theorem Enters.sameHierarchy {elements : List DeclId} {id entry : DeclId}
    (entered : p.Enters elements id entry) : p.SameHierarchy id entry := by
  obtain ⟨before, after, -, -, inside, -⟩ := entered
  exact inside

theorem Enters.mem {elements : List DeclId} {id entry : DeclId}
    (entered : p.Enters elements id entry) : entry ∈ elements := by
  obtain ⟨before, after, rfl, -⟩ := entered
  simp

theorem enters_cons_iff {entry : DeclId} {rest : List DeclId} {id other : DeclId}
    (classLike : (p.decl entry).kind.isClassLike = true) (inside : p.SameHierarchy id entry) :
    p.Enters (entry :: rest) id other ↔ other = entry := by
  constructor
  · rintro ⟨before, after, split, -, -, apart⟩
    cases before with
    | nil => exact (List.cons.inj split).1.symm
    | cons first before =>
      rw [← (List.cons.inj split).1] at apart
      exact absurd inside (apart entry (List.mem_cons_self ..) classLike)
  · rintro rfl
    exact ⟨[], rest, rfl, classLike, inside, fun _ member => nomatch member⟩

theorem Enters.of_perm {elements others : List DeclId} {id entry : DeclId}
    (entered : p.Enters elements id entry) (same : elements.Perm others) :
    ∃ other, p.Enters others id other := by
  have listed := entered.mem
  obtain ⟨_, _, -, classLike, inside, -⟩ := entered
  exact exists_enters (same.mem_iff.mp listed) classLike inside

namespace PlainHierarchies

theorem source (plain : p.PlainHierarchies) {a b : DeclId} (linked : p.Linked a b) :
    (p.decl a).language = .source :=
  plain.fromSource a linked.inside.1 b linked.inside.2 linked

theorem ne_of_linked (plain : p.PlainHierarchies) {a b : DeclId} (linked : p.Linked a b) :
    b ≠ a := by
  rintro rfl
  rcases linked with ⟨_, declared⟩ | ⟨_, declared⟩ <;>
    exact plain.irreflexive b (mem_declIds_of_supertype declared) declared

end PlainHierarchies

theorem length_le_of_size_le (small : p.decls.size ≤ hierarchyLimit) (id : DeclId)
    (members : List DeclId) (distinct : members.Nodup)
    (inside : ∀ member ∈ members, p.SameHierarchy id member) : members.length ≤ hierarchyLimit := by
  by_cases known : id ∈ p.declIds
  · have contained : members ⊆ p.declIds := by
      intro member found
      rcases (inside member found).inside with rfl | declared
      · exact known
      · exact declared
    calc
      members.length ≤ p.declIds.length := distinct.length_le_of_subset contained
      _ = p.decls.size := p.length_declIds
      _ ≤ hierarchyLimit := small
  · have alone : members ⊆ [id] := by
      intro member found
      rcases (inside member found).symm.inside with rfl | declared
      · exact List.mem_singleton_self _
      · exact absurd declared known
    have one := distinct.length_le_of_subset alone
    exact Nat.le_trans one (by simp [hierarchyLimit])

theorem wholeHierarchies_iff {ids : List DeclId} :
    p.WholeHierarchies ids ↔ ∀ id, p.TakenWhole ids id := by
  constructor
  · intro whole id member listed inside other same
    exact whole member listed other (inside.symm.trans same)
  · intro taken id listed other same
    exact taken id id listed (SameHierarchy.refl id) other same

theorem Walkable.of_same {id other : DeclId} (walkable : p.Walkable id)
    (same : p.SameHierarchy id other) : p.Walkable other where
  upwards := fun member inside => walkable.upwards member (same.trans inside)
  limited := fun members distinct inside =>
    walkable.limited members distinct fun member listed => same.trans (inside member listed)

theorem PlainHierarchies.walkable (plain : p.PlainHierarchies) (id : DeclId) : p.Walkable id where
  upwards := by
    intro member _ parent declared isSealed
    rcases plain.sealedKind parent (mem_declIds_of_isSealed isSealed) isSealed with
      plainClass | interface
    · left
      cases found : p.superclass? member with
      | none =>
        have others := List.find?_eq_none.mp found parent declared
        simp [plainClass] at others
      | some superclass =>
        have kind : (p.decl superclass).kind = .plainClass := by simpa using List.find?_some found
        rw [plain.oneSuperclass member (mem_declIds_of_supertype declared) superclass
          (List.mem_of_find?_eq_some found) parent declared kind plainClass]
    · exact Or.inr interface
  limited := plain.limited id

end Project

namespace Pass

variable {pass : Pass}

theorem sealedNeighbours_eq_nil_iff (id : DeclId) :
    pass.sealedNeighbours id = [] ↔ pass.inHierarchy id = false := by
  unfold sealedNeighbours inHierarchy
  cases pass.isSealed id <;> simp

theorem sealed_of_mem_sealedParents {id parent : DeclId} (above : parent ∈ pass.sealedParents id) :
    (pass.project.decl parent).isSealed = true ∧ parent ∈ pass.project.supertypeDecls id := by
  obtain ⟨declared, isSealed⟩ := List.mem_filter.mp above
  refine ⟨isSealed, ?_⟩
  rcases List.mem_append.mp declared with superclass | superInterface
  · exact List.mem_of_find?_eq_some (Option.mem_toList.mp superclass)
  · exact (List.mem_filter.mp superInterface).1

theorem mem_directInheritors (search : pass.services = pass.project.services)
    {id child : DeclId} (isSealed : (pass.project.decl id).isSealed = true) :
    child ∈ pass.services.directInheritors id ↔ id ∈ pass.project.supertypeDecls child := by
  have inside := Project.mem_declIds_of_isSealed isSealed
  simp only [search, pass.project.directInheritors_eq inside, List.mem_filter,
    List.contains_iff_mem]
  constructor
  · exact fun child => child.2
  · exact fun declared => ⟨Project.mem_declIds_of_supertype declared, declared⟩

theorem mem_subclasses (search : pass.services = pass.project.services) {id child : DeclId}
    (isSealed : (pass.project.decl id).isSealed = true) :
    child ∈ pass.subclasses id ↔ id ∈ pass.project.supertypeDecls child := by
  simp only [subclasses, Repetition.mem_eraseReps, List.mem_mergeSort,
    mem_directInheritors search isSealed]

/-- A walk looks at links of a class and at nothing else. -/
theorem linked_of_mem_sealedNeighbours (search : pass.services = pass.project.services)
    {id other : DeclId} (next : other ∈ pass.sealedNeighbours id) :
    pass.project.Linked id other := by
  rcases List.mem_append.mp next with above | below
  · exact Or.inr (sealed_of_mem_sealedParents above)
  · split at below
    next isSealed => exact Or.inl ⟨isSealed, (mem_subclasses search isSealed).mp below⟩
    · cases below

theorem joined_of_inHierarchy (search : pass.services = pass.project.services) {id : DeclId}
    (member : pass.inHierarchy id = true) : pass.project.Joined id := by
  have some : pass.sealedNeighbours id ≠ [] := by
    rw [Ne, sealedNeighbours_eq_nil_iff, member]
    exact Bool.noConfusion
  obtain ⟨other, next⟩ := List.exists_mem_of_ne_nil _ some
  exact ⟨other, linked_of_mem_sealedNeighbours search next⟩

section Asked

variable {id : DeclId} (asked : ∀ parent ∈ pass.project.supertypeDecls id,
  (pass.project.decl parent).isSealed = true →
    pass.project.superclass? id = some parent ∨ (pass.project.decl parent).kind = .interface)
include asked

/-- All that is sealed above a class is asked for, if it is its superclass or an interface. -/
theorem mem_sealedParents {parent : DeclId} :
    parent ∈ pass.sealedParents id ↔
      (pass.project.decl parent).isSealed = true ∧ parent ∈ pass.project.supertypeDecls id := by
  refine ⟨sealed_of_mem_sealedParents, ?_⟩
  rintro ⟨isSealed, declared⟩
  refine List.mem_filter.mpr ⟨List.mem_append.mpr ?_, isSealed⟩
  rcases asked parent declared isSealed with superclass | interface
  · exact Or.inl (Option.mem_toList.mpr superclass)
  · exact Or.inr (List.mem_filter.mpr ⟨declared, by simp [interface]⟩)

theorem mem_sealedNeighbours (search : pass.services = pass.project.services) {other : DeclId} :
    other ∈ pass.sealedNeighbours id ↔ pass.project.Linked id other := by
  unfold sealedNeighbours Project.Linked isSealed
  rw [List.mem_append, mem_sealedParents asked, or_comm]
  refine or_congr ?_ Iff.rfl
  split
  next isSealed => simp [mem_subclasses search isSealed, isSealed]
  next isOpen => simp [isOpen]

theorem inHierarchy_iff (search : pass.services = pass.project.services) :
    pass.inHierarchy id = true ↔ pass.project.Joined id := by
  simp only [Project.Joined, ← mem_sealedNeighbours asked search]
  rw [← Bool.not_eq_false, ← sealedNeighbours_eq_nil_iff, List.eq_nil_iff_forall_not_mem]
  simp

end Asked

end Pass

end Relocation
