import Mathlib.Data.List.Chain
import Relocation.Proofs.Sealed.Entry
set_option autoImplicit false

/-!
Hierarchies beyond the limit of a walk.

A walk along a row of sealed classes takes as many of them as the limit allows. In a chain of more
classes it finds other members from one end than from the other, and the classes that it leaves out
are a hierarchy of their own for the walks that follow.
-/

namespace Relocation

namespace Pass

variable {pass : Pass}

theorem visitHierarchy_again (depth : Nat) (walk : HierarchyWalk) (id : DeclId) :
    pass.visitHierarchy depth (pass.visitHierarchy depth walk id) id =
      pass.visitHierarchy depth walk id := by
  cases depth with
  | zero => rfl
  | succ depth =>
    by_cases blocked : hierarchyLimit ≤ walk.members.length ∨ id ∈ walk.seen
    · rw [visitHierarchy_of_blocked blocked, visitHierarchy_of_blocked blocked]
    · have known : id ∈ (pass.visitHierarchy (depth + 1) walk id).seen := by
        rw [visitHierarchy, if_neg blocked]
        exact (grows_foldl (grows_visitHierarchy depth) (fun _ next => next) _).kept
          (List.mem_cons_self ..)
      exact visitHierarchy_of_blocked (Or.inr known)

theorem foldl_visitHierarchy_of_still {depth : Nat} {walk : HierarchyWalk} {ids : List DeclId}
    (still : ∀ id ∈ ids, pass.visitHierarchy depth walk id = walk) :
    ids.foldl (pass.visitHierarchy depth) walk = walk := by
  induction ids with
  | nil => rfl
  | cons first rest inductionHypothesis =>
    obtain ⟨firstStill, restStill⟩ := List.forall_mem_cons.mp still
    rw [List.foldl_cons, firstStill, inductionHypothesis restStill]

theorem foldl_visitHierarchy_of_one {depth : Nat} {walk : HierarchyWalk} {ids : List DeclId}
    {next : DeclId} (listed : next ∈ ids) (others : ∀ id ∈ ids, id = next ∨ id ∈ walk.seen) :
    ids.foldl (pass.visitHierarchy depth) walk = pass.visitHierarchy depth walk next := by
  induction ids with
  | nil => cases listed
  | cons first rest inductionHypothesis =>
    obtain ⟨firstKnown, restKnown⟩ := List.forall_mem_cons.mp others
    rw [List.foldl_cons]
    by_cases here : first = next
    · subst here
      refine foldl_visitHierarchy_of_still fun id member => ?_
      rcases restKnown id member with rfl | known
      · exact visitHierarchy_again depth walk id
      · exact visitHierarchy_of_blocked (Or.inr ((grows_visitHierarchy depth walk first).kept known))
    · rw [visitHierarchy_of_blocked (Or.inr (firstKnown.resolve_left here))]
      exact inductionHypothesis ((List.mem_cons.mp listed).resolve_left (Ne.symm here)) restKnown

/-- Sealed classes in a row, each the only neighbour of the one before that was not seen. -/
inductive Row (pass : Pass) : List DeclId → List DeclId → Prop
  | nil (seen : List DeclId) : Row pass seen []
  | cons {seen rest : List DeclId} {id : DeclId} (new : id ∉ seen)
      (isSealed : pass.isSealed id = true)
      (next : ∀ other ∈ rest.head?, other ∈ pass.sealedNeighbours id)
      (only : ∀ other ∈ pass.sealedNeighbours id, other ∈ rest.head? ∨ other ∈ id :: seen)
      (further : Row pass (id :: seen) rest) : Row pass seen (id :: rest)

theorem visitHierarchy_row {seen row : List DeclId} (isRow : Row pass seen row) {depth : Nat}
    (deep : row.length ≤ depth) {members : List DeclId} {entry : DeclId}
    (starts : entry ∈ row.head?) :
    pass.visitHierarchy depth { seen, members } entry =
      { seen := (row.take (hierarchyLimit - members.length)).reverse ++ seen
        members := (row.take (hierarchyLimit - members.length)).reverse ++ members } := by
  induction isRow generalizing depth members entry with
  | nil => cases starts
  | @cons seen rest id new isSealed next only further inductionHypothesis =>
    obtain rfl : id = entry := by simpa using starts
    obtain ⟨depth, rfl⟩ : ∃ less, depth = less + 1 := Nat.exists_eq_add_one.mpr (by
      simp only [List.length_cons] at deep
      omega)
    by_cases full : hierarchyLimit ≤ members.length
    · rw [visitHierarchy_of_blocked (Or.inl full), Nat.sub_eq_zero_of_le full]
      rfl
    · obtain ⟨room, split⟩ : ∃ room, hierarchyLimit - members.length = room + 1 :=
        Nat.exists_eq_add_one.mpr (by omega)
      have less : hierarchyLimit - (id :: members).length = room := by
        rw [List.length_cons]
        omega
      have onward : pass.visitHierarchy (depth + 1) { seen, members } id =
          (pass.sealedNeighbours id).foldl (pass.visitHierarchy depth)
            { seen := id :: seen, members := id :: members } := by
        simp [visitHierarchy, full, new, isSealed]
      rw [onward, split]
      cases rest with
      | nil =>
        rw [foldl_visitHierarchy_of_still]
        · simp
        · intro other neighbour
          rcases only other neighbour with none | known
          · cases none
          · exact visitHierarchy_of_blocked (Or.inr known)
      | cons second rest =>
        rw [foldl_visitHierarchy_of_one (next second rfl)]
        · rw [inductionHypothesis (Nat.le_of_succ_le_succ deep) rfl, less]
          simp
        · intro other neighbour
          rcases only other neighbour with same | known
          · exact Or.inl (Option.some.inj same).symm
          · exact Or.inr known

theorem hierarchyMembers_row {seen rest : List DeclId} {entry : DeclId}
    (isRow : Row pass seen (entry :: rest))
    (deep : (entry :: rest).length ≤ pass.project.declDepth)
    (source : ∀ id ∈ entry :: rest, (pass.project.decl id).language = .source) :
    pass.hierarchyMembers seen entry =
      ((entry :: rest).take hierarchyLimit,
        ((entry :: rest).take hierarchyLimit).reverse ++ seen) := by
  have walked : pass.visitHierarchy pass.project.declDepth { seen } entry = _ :=
    visitHierarchy_row isRow deep rfl
  simp only [hierarchyMembers, walked, List.length_nil, Nat.sub_zero, List.append_nil,
    List.reverse_reverse, Prod.mk.injEq, and_true]
  refine List.filter_eq_self.mpr fun id taken => ?_
  simpa using source id (List.mem_of_mem_take taken)

end Pass

namespace Project

/-- Where a class of a chain lives: the ends together, the second class alone, all others together. -/
def chainHome (n i : Nat) : FileId :=
  if i = 0 ∨ i = n + 1 then ⟨2⟩ else if i = 1 then ⟨1⟩ else ⟨0⟩

def chainClass (n i : Nat) : Declaration where
  name := "Link" ++ toString i
  kind := .plainClass
  parent := .file (chainHome n i)
  modality := .sealed
  supertypes := if i = 0 then [] else [⟨i + 1⟩]

def chainResidence (n i : Nat) : Pass.Residence :=
  if i = 0 ∨ i = n + 1 then ⟨⟨0⟩, ⟨"c"⟩, ⟨2⟩⟩
  else if i = 1 then ⟨⟨0⟩, ⟨"b"⟩, ⟨1⟩⟩
  else ⟨⟨0⟩, ⟨"a"⟩, ⟨0⟩⟩

def links (start count : Nat) : List DeclId := (List.range' start count).map DeclId.mk

/-- A chain of `n + 2` sealed classes, each the superclass of the next. -/
def chain (n : Nat) : Project where
  modules := #[{ name := "core", platform := .jvm }]
  directories := #[
    ⟨"a", .module ⟨0⟩ false, ⟨"a"⟩⟩,
    ⟨"b", .module ⟨0⟩ false, ⟨"b"⟩⟩,
    ⟨"c", .module ⟨0⟩ false, ⟨"c"⟩⟩,
    ⟨"d", .module ⟨0⟩ false, ⟨"d"⟩⟩]
  files := #[
    { name := "Links.kt", directory := ⟨0⟩, package := ⟨"a"⟩
      declarations := (links 2 (n - 1)).toArray },
    { name := "Second.kt", directory := ⟨1⟩, package := ⟨"b"⟩, declarations := #[⟨1⟩] },
    { name := "Ends.kt", directory := ⟨2⟩, package := ⟨"c"⟩, declarations := #[⟨0⟩, ⟨n + 1⟩] }]
  decls := ((List.range (n + 2)).map (chainClass n)).toArray
  types := ⟨(.any false :: .any true ::
    (List.range (n + 1)).map fun i => .applied ⟨i⟩ [] false).toArray⟩

variable {n : Nat}

theorem two_lt_of_full (full : hierarchyLimit = n) : 2 < n := by
  rw [← full]
  decide

theorem chainResidence_eq_second {i : Nat} (long : 0 < n) :
    chainResidence n i = ⟨⟨0⟩, ⟨"b"⟩, ⟨1⟩⟩ ↔ i = 1 := by
  unfold chainResidence
  split
  next atEnd => exact iff_of_false (by simp) (by omega)
  next between =>
    split
    next second => exact iff_of_true rfl second
    next later => exact iff_of_false (by simp) later

theorem chainResidence_eq_end {i : Nat} :
    chainResidence n i = ⟨⟨0⟩, ⟨"c"⟩, ⟨2⟩⟩ ↔ i = 0 ∨ i = n + 1 := by
  unfold chainResidence
  split
  next atEnd => exact iff_of_true rfl atEnd
  next between => exact iff_of_false (by split <;> simp) between

theorem mem_links {start count : Nat} {id : DeclId} :
    id ∈ links start count ↔ start ≤ id.index ∧ id.index < start + count := by
  rcases id with ⟨i⟩
  simp [links]

theorem links_append (start first second : Nat) :
    links start first ++ links (start + first) second = links start (first + second) := by
  rw [links, links, links, ← List.map_append, List.range'_append_1]

theorem pairwise_links (start count : Nat) :
    (links start count).Pairwise fun a b => a.index < b.index :=
  List.pairwise_map.mpr List.pairwise_lt_range'

theorem decl_chain {i : Nat} (inside : i < n + 2) : (chain n).decl ⟨i⟩ = chainClass n i := by
  simp [decl, chain, inside]

theorem mem_declIds_chain {id : DeclId} : id ∈ (chain n).declIds ↔ id.index < n + 2 := by
  simp [mem_declIds, chain]

theorem supertypeDecls_chain {i : Nat} (inside : i + 1 < n + 2) :
    (chain n).supertypeDecls ⟨i + 1⟩ = [⟨i⟩] := by
  have shape : (chain n).types.get ⟨i + 2⟩ = .applied ⟨i⟩ [] false := by
    simp [TypeTable.get, chain, show i < n + 1 by omega]
  simp [supertypeDecls, decl_chain inside, chainClass, shape, TypeShape.class?]

theorem mem_supertypeDecls_chain {parent child : DeclId} :
    parent ∈ (chain n).supertypeDecls child ↔
      child.index < n + 2 ∧ parent.index + 1 = child.index := by
  rcases parent with ⟨parent⟩
  rcases child with ⟨i⟩
  by_cases inside : i < n + 2
  · cases i with
    | zero => simp [supertypeDecls, decl_chain inside, chainClass]
    | succ i => simp [supertypeDecls_chain inside, inside]
  · refine iff_of_false (fun declared => ?_) (fun found => inside found.1)
    exact inside (mem_declIds_chain.mp (mem_declIds_of_supertype declared))

theorem isSealed_chain {id : DeclId} (inside : id.index < n + 2) :
    ((chain n).decl id).isSealed = true := by
  rw [decl_chain inside]
  rfl

theorem isInside_chain {elements : List Element} {id : DeclId} (inside : id.index < n + 2) :
    (chain n).isInside elements (.decl id) = true ↔
      .decl id ∈ elements ∨ .file (chainHome n id.index) ∈ elements := by
  have ancestor (outer : Element) : (chain n).isAncestor outer (.decl id) = true ↔
      outer = .decl id ∨ outer = .file (chainHome n id.index) := by
    simp [isAncestor, chainLimit, liesWithin, around?, decl_chain inside, chainClass,
      eq_comm (b := outer)]
  simp only [isInside, List.any_eq_true, ancestor, and_or_left, exists_or, exists_eq_right]

theorem superclass?_chain {parent child : DeclId}
    (declared : parent ∈ (chain n).supertypeDecls child) :
    (chain n).superclass? child = some parent := by
  rcases child with ⟨i⟩
  obtain ⟨inside, next⟩ := mem_supertypeDecls_chain.mp declared
  obtain rfl : parent.index + 1 = i := next
  simp [superclass?, supertypeDecls_chain inside, decl_chain (Nat.lt_of_succ_lt inside), chainClass]

theorem linked_chain_iff {a b : DeclId} :
    (chain n).Linked a b ↔ a.index < n + 2 ∧ b.index < n + 2 ∧
      (a.index + 1 = b.index ∨ b.index + 1 = a.index) := by
  unfold Linked
  simp only [mem_supertypeDecls_chain]
  constructor
  · rintro (⟨-, inside, next⟩ | ⟨-, inside, next⟩) <;> omega
  · rintro ⟨aInside, bInside, next | next⟩
    · exact Or.inl ⟨isSealed_chain aInside, bInside, next⟩
    · exact Or.inr ⟨isSealed_chain bInside, aInside, next⟩

theorem isChain_links {start count : Nat} (inside : start + count ≤ n + 2) :
    (links start count).IsChain (chain n).Linked := by
  rw [links, List.isChain_map]
  refine (List.isChain_range' start count 1).imp_of_mem_imp fun i j iMember jMember next => ?_
  have := List.mem_range'_1.mp iMember
  have := List.mem_range'_1.mp jMember
  exact linked_chain_iff.mpr ⟨by simp only; omega, by simp only; omega, Or.inl next.symm⟩

theorem sameHierarchy_chain {i : Nat} (inside : i < n + 2) :
    (chain n).SameHierarchy ⟨0⟩ ⟨i⟩ := by
  induction i with
  | zero => exact .refl _
  | succ i inductionHypothesis =>
    have linked : (chain n).Linked ⟨i⟩ ⟨i + 1⟩ := linked_chain_iff.mpr (by simp; omega)
    exact (inductionHypothesis (by omega)).trans (.of_linked linked)

end Project

namespace Pass

variable {pass : Pass} {n : Nat}

section Chain

variable (along : pass.project = .chain n) (search : pass.services = pass.project.services)
include along

theorem isSealed_chain {id : DeclId} (inside : id.index < n + 2) : pass.isSealed id = true := by
  rw [isSealed, along]
  exact Project.isSealed_chain inside

theorem residence?_chain {id : DeclId} (inside : id.index < n + 2) :
    pass.residence? id = some (Project.chainResidence n id.index) := by
  have home : pass.project.fileOf? id = some (Project.chainHome n id.index) := by
    simp [Project.fileOf?, chainLimit, Project.fileWithin, along, Project.decl_chain inside,
      Project.chainClass]
  rw [residence?, home, along]
  unfold Project.chainHome Project.chainResidence
  split
  · rfl
  · split <;> rfl

include search

theorem mem_sealedNeighbours_chain {id other : DeclId} :
    other ∈ pass.sealedNeighbours id ↔ id.index < n + 2 ∧ other.index < n + 2 ∧
      (id.index + 1 = other.index ∨ other.index + 1 = id.index) := by
  rw [← Project.linked_chain_iff, ← along]
  refine mem_sealedNeighbours (fun parent declared _ => ?_) search
  rw [along] at declared ⊢
  exact Or.inl (Project.superclass?_chain declared)

/-- The unseen classes of a chain are a row, if they are listed along the chain one way or the
other. -/
theorem row_chain {seen ids : List DeclId} (linked : ids.IsChain (Project.chain n).Linked)
    (straight : ids.Pairwise (fun a b => a.index < b.index) ∨
      ids.Pairwise (fun a b => b.index < a.index))
    (inside : ∀ id ∈ ids, id.index < n + 2)
    (unseen : ∀ id : DeclId, id.index < n + 2 → (id ∉ seen ↔ id ∈ ids)) : Row pass seen ids := by
  induction ids generalizing seen with
  | nil => exact .nil seen
  | cons id rest inductionHypothesis =>
    obtain ⟨idInside, restInside⟩ := List.forall_mem_cons.mp inside
    obtain ⟨headLinked, restLinked⟩ := List.isChain_cons.mp linked
    simp only [List.pairwise_cons] at straight
    refine .cons ((unseen id idInside).mpr (List.mem_cons_self ..))
      (isSealed_chain along idInside) ?_ ?_
      (inductionHypothesis restLinked (straight.imp And.right And.right) restInside ?_)
    · intro other next
      exact (mem_sealedNeighbours_chain along search).mpr
        (Project.linked_chain_iff.mp (headLinked other next))
    · intro other neighbour
      obtain ⟨-, otherInside, adjacent⟩ := (mem_sealedNeighbours_chain along search).mp neighbour
      by_cases known : other ∈ id :: seen
      · exact Or.inr known
      · obtain ⟨ne, new⟩ := not_or.mp (List.mem_cons.not.mp known)
        have later := (List.mem_cons.mp ((unseen other otherInside).mp new)).resolve_left ne
        cases rest with
        | nil => cases later
        | cons second rest =>
          -- Both lie on the same side of the class, and next to it.
          obtain ⟨-, -, nextTo⟩ := Project.linked_chain_iff.mp (headLinked second rfl)
          have same : other.index = second.index := by
            rcases straight with ⟨below, -⟩ | ⟨above, -⟩
            · have := below second (List.mem_cons_self ..)
              have := below other later
              omega
            · have := above second (List.mem_cons_self ..)
              have := above other later
              omega
          exact Or.inl (congrArg (some ∘ DeclId.mk) same.symm)
    · intro other otherInside
      rw [List.mem_cons, not_or, unseen other otherInside, List.mem_cons]
      constructor
      · rintro ⟨ne, same | later⟩
        · exact absurd same ne
        · exact later
      · intro later
        refine ⟨?_, Or.inr later⟩
        rintro rfl
        rcases straight with ⟨below, -⟩ | ⟨above, -⟩
        · exact absurd (below other later) (Nat.lt_irrefl _)
        · exact absurd (above other later) (Nat.lt_irrefl _)

section Links

variable {seen : List DeclId} {start count : Nat} (inside : start + count ≤ n + 2)
  (unseen : ∀ id : DeclId, id.index < n + 2 → (id ∉ seen ↔ id ∈ Project.links start count))
include inside unseen

theorem row_links : Row pass seen (Project.links start count) := by
  refine row_chain along search (Project.isChain_links inside)
    (Or.inl (Project.pairwise_links start count)) ?_ unseen
  intro id member
  have := Project.mem_links.mp member
  omega

theorem row_links_reverse : Row pass seen (Project.links start count).reverse := by
  refine row_chain along search ?_ (Or.inr ?_) ?_ ?_
  · exact List.isChain_reverse.mpr ((Project.isChain_links inside).imp fun _ _ => .symm)
  · exact List.pairwise_reverse.mpr (Project.pairwise_links start count)
  · intro id member
    have := Project.mem_links.mp (List.mem_reverse.mp member)
    omega
  · simpa using unseen

end Links

section Walks

variable {seen : List DeclId} {start count : Nat} (inside : start + (count + 1) ≤ n + 2)
  (unseen : ∀ id : DeclId, id.index < n + 2 →
    (id ∉ seen ↔ id ∈ Project.links start (count + 1)))
include inside unseen

omit search unseen in
theorem deep_links : (Project.links start (count + 1)).length ≤ pass.project.declDepth := by
  simp only [Project.links, List.length_map, List.length_range', Project.declDepth, along,
    Project.chain, List.size_toArray, List.length_range]
  omega

omit search unseen in
theorem source_links {id : DeclId} (member : id ∈ Project.links start (count + 1)) :
    (pass.project.decl id).language = .source := by
  have := Project.mem_links.mp member
  rw [along, Project.decl_chain (show id.index < n + 2 by omega)]
  rfl

theorem hierarchyMembers_links :
    pass.hierarchyMembers seen ⟨start⟩ =
      ((Project.links start (count + 1)).take hierarchyLimit,
        ((Project.links start (count + 1)).take hierarchyLimit).reverse ++ seen) := by
  have isRow : Row pass seen (⟨start⟩ :: Project.links (start + 1) count) :=
    row_links along search inside unseen
  exact hierarchyMembers_row isRow (deep_links along inside)
    fun _ member => source_links along inside member

theorem hierarchyMembers_links_reverse :
    pass.hierarchyMembers seen ⟨start + count⟩ =
      ((Project.links start (count + 1)).reverse.take hierarchyLimit,
        ((Project.links start (count + 1)).reverse.take hierarchyLimit).reverse ++ seen) := by
  have split : (Project.links start (count + 1)).reverse =
      ⟨start + count⟩ :: (Project.links start count).reverse := by
    rw [← Project.links_append start count 1, List.reverse_append]
    rfl
  have isRow := row_links_reverse along search inside unseen
  have deep := deep_links along inside
  rw [← List.length_reverse] at deep
  rw [split] at isRow deep ⊢
  refine hierarchyMembers_row isRow deep fun id member => source_links along inside ?_
  rw [← List.mem_reverse, split]
  exact member

end Walks

theorem walkStarts_chain {seen : List DeclId} {id : DeclId} (rest : List DeclId)
    (inside : id.index < n + 2) (new : id ∉ seen) :
    pass.walkStarts seen (id :: rest) =
      (seen, id) :: pass.walkStarts (pass.hierarchyMembers seen id).2 rest := by
  refine walkStarts_of_new rest ?_ new ?_
  · rw [along, Project.decl_chain inside]
    rfl
  · have neighbour : ∃ other, other ∈ pass.sealedNeighbours id := by
      rcases id with ⟨_ | i⟩
      · exact ⟨⟨1⟩, (mem_sealedNeighbours_chain along search).mpr (by simp)⟩
      · exact ⟨⟨i⟩, (mem_sealedNeighbours_chain along search).mpr (by simp at inside ⊢; omega)⟩
    obtain ⟨other, member⟩ := neighbour
    rw [← Bool.not_eq_false, ← sealedNeighbours_eq_nil_iff]
    exact List.ne_nil_of_mem member

theorem walkStarts_twice {one other : DeclId} {rest between after : List DeclId}
    (oneInside : one.index < n + 2) (between_eq : (pass.hierarchyMembers [] one).2 = between)
    (otherInside : other.index < n + 2) (new : other ∉ between)
    (after_eq : (pass.hierarchyMembers between other).2 = after) (known : rest ⊆ after) :
    pass.walkStarts [] (one :: other :: rest) = [([], one), (between, other)] := by
  rw [walkStarts_chain along search _ oneInside List.not_mem_nil, between_eq,
    walkStarts_chain along search _ otherInside new, after_eq, pass.walkStarts_of_seen known]

omit along search in
theorem not_mem_nil_iff_mem_links {id : DeclId} (inside : id.index < n + 2) :
    id ∉ ([] : List DeclId) ↔ id ∈ Project.links 0 (n + 1 + 1) := by
  refine iff_of_true List.not_mem_nil (Project.mem_links.mpr ⟨Nat.zero_le _, ?_⟩)
  rw [Nat.zero_add]
  exact inside

section Limit

variable (full : hierarchyLimit = n) {rest : List DeclId}
  (restInside : ∀ id ∈ rest, id.index < n + 2)
include full restInside

/-- From the first class a pass walks up to the limit, and then from the last class through what is
left. -/
theorem walks_upwards :
    ∃ seen, pass.walkStarts [] (⟨0⟩ :: ⟨n + 1⟩ :: rest) = [([], ⟨0⟩), (seen, ⟨n + 1⟩)] ∧
      (∀ id, id ∈ pass.othersFrom [] ⟨0⟩ ↔ 0 < id.index ∧ id.index < n) ∧
      pass.othersFrom seen ⟨n + 1⟩ = [⟨n⟩] := by
  have first : pass.hierarchyMembers [] ⟨0⟩ = (Project.links 0 n, (Project.links 0 n).reverse) := by
    have taken : (Project.links 0 (n + 2)).take n = Project.links 0 n := by
      rw [← Project.links_append 0 n 2]
      exact List.take_left' (by simp [Project.links])
    rw [hierarchyMembers_links along search (by omega : 0 + (n + 1 + 1) ≤ n + 2), full, taken,
      List.append_nil]
    exact fun _ inside => not_mem_nil_iff_mem_links inside
  have second : pass.hierarchyMembers (Project.links 0 n).reverse ⟨n + 1⟩ =
      ([⟨n + 1⟩, ⟨n⟩], Project.links n 2 ++ (Project.links 0 n).reverse) := by
    rw [hierarchyMembers_links_reverse along search (by omega : n + (1 + 1) ≤ n + 2),
      List.take_of_length_le]
    · rfl
    · simp [Project.links, hierarchyLimit]
    · intro id inside
      simp only [List.mem_reverse, Project.mem_links]
      omega
  refine ⟨(Project.links 0 n).reverse, ?_, ?_, ?_⟩
  · refine walkStarts_twice along search (Nat.succ_pos _) (congrArg Prod.snd first)
      (Nat.lt_succ_self _) (by simp [Project.mem_links]) (congrArg Prod.snd second) ?_
    intro id member
    have := restInside id member
    simp only [List.mem_append, List.mem_reverse, Project.mem_links]
    omega
  · rintro ⟨i⟩
    simp only [othersFrom, first, List.mem_filter, Project.mem_links, bne_iff_ne, Ne,
      DeclId.mk.injEq]
    omega
  · simp [othersFrom, second]

theorem walks_downwards :
    ∃ seen, pass.walkStarts [] (⟨n + 1⟩ :: ⟨0⟩ :: rest) = [([], ⟨n + 1⟩), (seen, ⟨0⟩)] ∧
      (∀ id, id ∈ pass.othersFrom [] ⟨n + 1⟩ ↔ 1 < id.index ∧ id.index ≤ n) ∧
      pass.othersFrom seen ⟨0⟩ = [⟨1⟩] := by
  have first : pass.hierarchyMembers [] ⟨n + 1⟩ =
      ((Project.links 2 n).reverse, Project.links 2 n) := by
    have taken : (Project.links 0 (n + 2)).reverse.take n = (Project.links 2 n).reverse := by
      rw [Nat.add_comm n 2, ← Project.links_append 0 2 n, List.reverse_append]
      exact List.take_left' (by simp [Project.links])
    have walked := hierarchyMembers_links_reverse along search
      (by omega : 0 + (n + 1 + 1) ≤ n + 2) fun _ inside => not_mem_nil_iff_mem_links inside
    rw [full, taken, List.append_nil, List.reverse_reverse, Nat.zero_add] at walked
    exact walked
  have second : pass.hierarchyMembers (Project.links 2 n) ⟨0⟩ =
      ([⟨0⟩, ⟨1⟩], (Project.links 0 2).reverse ++ Project.links 2 n) := by
    rw [hierarchyMembers_links along search (by omega : 0 + (1 + 1) ≤ n + 2),
      List.take_of_length_le]
    · rfl
    · simp [Project.links, hierarchyLimit]
    · intro id inside
      simp only [Project.mem_links]
      omega
  refine ⟨Project.links 2 n, ?_, ?_, ?_⟩
  · refine walkStarts_twice along search (Nat.lt_succ_self _) (congrArg Prod.snd first)
      (Nat.succ_pos _) (by simp [Project.mem_links]) (congrArg Prod.snd second) ?_
    intro id member
    have := restInside id member
    simp only [List.mem_append, List.mem_reverse, Project.mem_links]
    omega
  · rintro ⟨i⟩
    simp only [othersFrom, first, List.mem_filter, List.mem_reverse, Project.mem_links, bne_iff_ne,
      Ne, DeclId.mk.injEq]
    omega
  · simp [othersFrom, second]

end Limit

end Chain

end Pass

end Relocation
