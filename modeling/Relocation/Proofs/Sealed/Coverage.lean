import Relocation.Proofs.Sealed.Hierarchy
set_option autoImplicit false

/-!
A walk through a sealed hierarchy finds all of it.

The walk of a pass stops at a limit and keeps members apart from what it has seen. It meets only
classes of one hierarchy, though, so everything new is a member, and a hierarchy within the limit
is never cut short. What it has seen is then what the plain walk over the links has seen.

Other hierarchies of the project may be such that walks do not find all of them. A walk through
one of those never comes to a class of this one, so what has been seen of this one stays all or
nothing.
-/

namespace Relocation.Pass

variable {pass : Pass}

/-- A walk from a class has seen what was seen before it and what its links lead to, once each. -/
structure Grows (pass : Pass) (id : DeclId) (before after : List DeclId) : Prop where
  kept : before ⊆ after
  distinct : before.Nodup → after.Nodup
  sound : ∀ other ∈ after, other ∈ before ∨ Walk.Reaches pass.sealedNeighbours id other

theorem visitHierarchy_of_blocked {depth : Nat} {walk : HierarchyWalk} {id : DeclId}
    (blocked : hierarchyLimit ≤ walk.members.length ∨ id ∈ walk.seen) :
    pass.visitHierarchy depth walk id = walk := by
  cases depth with
  | zero => rfl
  | succ depth => simp only [visitHierarchy, blocked, if_true]

theorem grows_foldl {depth : Nat} {id : DeclId}
    (single : ∀ walk neighbour,
      Grows pass neighbour walk.seen (pass.visitHierarchy depth walk neighbour).seen)
    {ids : List DeclId} (next : ∀ neighbour ∈ ids, neighbour ∈ pass.sealedNeighbours id)
    (walk : HierarchyWalk) :
    Grows pass id walk.seen (ids.foldl (pass.visitHierarchy depth) walk).seen := by
  induction ids generalizing walk with
  | nil => exact ⟨List.Subset.refl _, fun distinct => distinct, fun other => Or.inl⟩
  | cons first rest inductionHypothesis =>
    obtain ⟨firstNext, restNext⟩ := List.forall_mem_cons.mp next
    have head := single walk first
    have tail := inductionHypothesis restNext (pass.visitHierarchy depth walk first)
    refine ⟨List.Subset.trans head.kept tail.kept,
      fun distinct => tail.distinct (head.distinct distinct), ?_⟩
    intro other member
    rcases tail.sound other member with early | below
    · rcases head.sound other early with early | below
      · exact Or.inl early
      · exact Or.inr (Relation.ReflTransGen.head firstNext below)
    · exact Or.inr below

theorem grows_visitHierarchy (depth : Nat) (walk : HierarchyWalk) (id : DeclId) :
    Grows pass id walk.seen (pass.visitHierarchy depth walk id).seen := by
  induction depth generalizing walk id with
  | zero => exact ⟨List.Subset.refl _, fun distinct => distinct, fun other => Or.inl⟩
  | succ depth inductionHypothesis =>
    unfold visitHierarchy
    split
    · exact ⟨List.Subset.refl _, fun distinct => distinct, fun other => Or.inl⟩
    next entered =>
      have new : id ∉ walk.seen := fun known => entered (Or.inr known)
      have below := grows_foldl inductionHypothesis (fun neighbour (next :
        neighbour ∈ pass.sealedNeighbours id) => next)
        { seen := id :: walk.seen
          members := if pass.isSealed id || !(pass.sealedParents id).isEmpty then
            id :: walk.members else walk.members }
      refine ⟨fun other known => below.kept (List.mem_cons_of_mem _ known),
        fun distinct => below.distinct (List.nodup_cons.mpr ⟨new, distinct⟩), ?_⟩
      intro other member
      rcases below.sound other member with early | reached
      · rcases List.mem_cons.mp early with rfl | early
        · exact Or.inr Relation.ReflTransGen.refl
        · exact Or.inl early
      · exact Or.inr reached

theorem grows_hierarchyMembers (seen : List DeclId) (id : DeclId) :
    Grows pass id seen (pass.hierarchyMembers seen id).2 :=
  grows_visitHierarchy _ { seen } id

theorem sameHierarchy_of_reaches (search : pass.services = pass.project.services)
    {id other : DeclId} (reached : Walk.Reaches pass.sealedNeighbours id other) :
    pass.project.SameHierarchy id other :=
  Relation.ReflTransGen.mono (fun _ _ next => linked_of_mem_sealedNeighbours search next) _ _ reached

/-- A walk through hierarchies has seen what a plain walk has, and everything new is a member. -/
structure Follows (before reached : List DeclId) (walk : HierarchyWalk) : Prop where
  seen : walk.seen = reached
  members : reached = walk.members ++ before

theorem follows_start (before : List DeclId) : Follows before before { seen := before } :=
  ⟨rfl, rfl⟩

theorem follows_foldl {depth : Nat} {before : List DeclId} {root : DeclId}
    (single : ∀ reached walk id, Follows before reached walk →
      pass.project.SameHierarchy root id →
      (Walk.visit pass.sealedNeighbours depth reached id).length ≤ hierarchyLimit + before.length →
      Follows before (Walk.visit pass.sealedNeighbours depth reached id)
        (pass.visitHierarchy depth walk id))
    {ids reached : List DeclId} {walk : HierarchyWalk} (follows : Follows before reached walk)
    (inside : ∀ id ∈ ids, pass.project.SameHierarchy root id)
    (room : (ids.foldl (Walk.visit pass.sealedNeighbours depth) reached).length ≤
      hierarchyLimit + before.length) :
    Follows before (ids.foldl (Walk.visit pass.sealedNeighbours depth) reached)
      (ids.foldl (pass.visitHierarchy depth) walk) := by
  induction ids generalizing reached walk with
  | nil => exact follows
  | cons first rest inductionHypothesis =>
    obtain ⟨firstInside, restInside⟩ := List.forall_mem_cons.mp inside
    have grown := (Walk.suffix_foldl_visit pass.sealedNeighbours depth rest
      (Walk.visit pass.sealedNeighbours depth reached first)).length_le
    exact inductionHypothesis (single reached walk first follows firstInside
      (Nat.le_trans grown room)) restInside room

section Links

variable {root : DeclId} (walkable : pass.project.Walkable root)
  (search : pass.services = pass.project.services)
include walkable

theorem isMember_of_joined {id : DeclId} (inside : pass.project.SameHierarchy root id)
    (joined : pass.project.Joined id) :
    (pass.isSealed id || !(pass.sealedParents id).isEmpty) = true := by
  rcases joined with ⟨other, ⟨isSealed, _⟩ | ⟨isSealed, declared⟩⟩
  · simp [Pass.isSealed, isSealed]
  · have parent := (mem_sealedParents (walkable.upwards id inside)).mpr ⟨isSealed, declared⟩
    simp [List.ne_nil_of_mem parent]

include search

theorem follows_visitHierarchy (joined : pass.project.Joined root) {depth : Nat}
    {before reached : List DeclId} {walk : HierarchyWalk} {id : DeclId}
    (follows : Follows before reached walk) (inside : pass.project.SameHierarchy root id)
    (room : (Walk.visit pass.sealedNeighbours depth reached id).length ≤
      hierarchyLimit + before.length) :
    Follows before (Walk.visit pass.sealedNeighbours depth reached id)
      (pass.visitHierarchy depth walk id) := by
  induction depth generalizing reached walk id with
  | zero => exact follows
  | succ depth inductionHypothesis =>
    by_cases known : id ∈ reached
    · rw [Walk.visit_of_mem _ known, visitHierarchy_of_blocked (Or.inr (follows.seen ▸ known))]
      exact follows
    · rw [Walk.visit_succ_of_not_mem _ known] at room ⊢
      -- The plain walk will have grown by this class at least, so the limit is not reached yet.
      have short : ¬ hierarchyLimit ≤ walk.members.length := by
        have grown := (Walk.suffix_foldl_visit pass.sealedNeighbours depth
          (pass.sealedNeighbours id) (id :: reached)).length_le
        have counted : reached.length = walk.members.length + before.length := by
          rw [follows.members, List.length_append]
        simp only [List.length_cons] at grown
        omega
      have entered : pass.visitHierarchy (depth + 1) walk id =
          (pass.sealedNeighbours id).foldl (pass.visitHierarchy depth)
            { seen := id :: walk.seen, members := id :: walk.members } := by
        have member := isMember_of_joined walkable inside (inside.joined joined)
        simp only [visitHierarchy, short, follows.seen, known, or_self, if_false, member, if_true]
      rw [entered]
      refine follows_foldl (fun _ _ _ => inductionHypothesis) ⟨?_, ?_⟩ ?_ room
      · rw [follows.seen]
      · rw [follows.members, List.cons_append]
      · intro neighbour member
        exact inside.trans (.of_linked (linked_of_mem_sealedNeighbours search member))

end Links

section Walks

variable {id : DeclId} (walkable : pass.project.Walkable id)
  (search : pass.services = pass.project.services)
include walkable search

theorem reaches_iff {other : DeclId} :
    Walk.Reaches pass.sealedNeighbours id other ↔ pass.project.SameHierarchy id other := by
  refine ⟨sameHierarchy_of_reaches search, fun same => ?_⟩
  induction same with
  | refl => exact Relation.ReflTransGen.refl
  | tail before linked inductionHypothesis =>
    exact inductionHypothesis.tail
      ((mem_sealedNeighbours (walkable.upwards _ before) search).mpr linked)

variable {seen : List DeclId} (taken : pass.project.TakenWhole seen id)
include taken

theorem mem_visit_sealedNeighbours (other : DeclId) :
    other ∈ Walk.visit pass.sealedNeighbours pass.project.declDepth seen id ↔
      other ∈ seen ∨ pass.project.SameHierarchy id other := by
  rw [← reaches_iff walkable search]
  refine Walk.mem_visit_iff _ (Project.suffices_declDepth (fun _ _ next =>
    (linked_of_mem_sealedNeighbours search next).inside.1) seen) id ?_ other
  intro known member reached neighbour next
  have same := sameHierarchy_of_reaches search reached
  exact taken known member same neighbour
    (same.trans (.of_linked (linked_of_mem_sealedNeighbours search next)))

/-- What a walk from an unseen class adds is the hierarchy of that class. -/
theorem mem_fresh_iff (distinct : seen.Nodup) (new : id ∉ seen) {fresh : List DeclId}
    (split : fresh ++ seen = Walk.visit pass.sealedNeighbours pass.project.declDepth seen id)
    (member : DeclId) : member ∈ fresh ↔ pass.project.SameHierarchy id member := by
  have found := mem_visit_sealedNeighbours walkable search taken member
  have apart := Walk.nodup_visit pass.sealedNeighbours pass.project.declDepth distinct id
  rw [← split] at found apart
  constructor
  · intro isFresh
    rcases found.mp (List.mem_append_left seen isFresh) with early | same
    · exact absurd rfl ((List.nodup_append.mp apart).2.2 member isFresh member early)
    · exact same
  · intro same
    rcases List.mem_append.mp (found.mpr (Or.inr same)) with isFresh | early
    · exact isFresh
    · exact absurd (taken member early same id (.refl id)) new

end Walks

/-- A walk from a class finds the source classes of its hierarchy, once each, and has seen just the
hierarchy besides what was seen before. -/
structure Finds (pass : Pass) (seen : List DeclId) (id : DeclId) : Prop where
  distinct : (pass.hierarchyMembers seen id).1.Nodup
  members : ∀ member, member ∈ (pass.hierarchyMembers seen id).1 ↔
    pass.project.SameHierarchy id member ∧ (pass.project.decl member).language = .source
  after : ∀ other, other ∈ (pass.hierarchyMembers seen id).2 ↔
    other ∈ seen ∨ pass.project.SameHierarchy id other

theorem finds_hierarchyMembers {id : DeclId} (walkable : pass.project.Walkable id)
    (search : pass.services = pass.project.services) {seen : List DeclId} (distinct : seen.Nodup)
    (taken : pass.project.TakenWhole seen id) (new : id ∉ seen)
    (joined : pass.project.Joined id) : Finds pass seen id := by
  have found := mem_visit_sealedNeighbours walkable search taken
  have apart := Walk.nodup_visit pass.sealedNeighbours pass.project.declDepth distinct id
  obtain ⟨fresh, split⟩ := Walk.suffix_visit pass.sealedNeighbours pass.project.declDepth seen id
  have freshMember := mem_fresh_iff walkable search taken distinct new split
  have freshDistinct : fresh.Nodup := (List.nodup_append.mp (split ▸ apart)).1
  -- The hierarchy is within the limit, so the walk of the pass is the plain one.
  have room : (Walk.visit pass.sealedNeighbours pass.project.declDepth seen id).length ≤
      hierarchyLimit + seen.length := by
    have limited := walkable.limited fresh freshDistinct fun member isFresh =>
      (freshMember member).mp isFresh
    rw [← split, List.length_append]
    omega
  have follows := follows_visitHierarchy walkable search joined (follows_start seen)
    (.refl id) room
  have collected : (pass.visitHierarchy pass.project.declDepth { seen } id).members = fresh :=
    List.append_cancel_right (follows.members.symm.trans split.symm)
  have result : pass.hierarchyMembers seen id =
      (fresh.reverse.filter fun member => (pass.project.decl member).language == .source,
        Walk.visit pass.sealedNeighbours pass.project.declDepth seen id) := by
    simp only [hierarchyMembers]
    rw [collected, follows.seen]
  refine ⟨?_, ?_, ?_⟩
  · rw [result]
    exact (List.nodup_reverse.mpr freshDistinct).filter _
  · intro member
    simp [result, freshMember]
  · simpa [result] using found

theorem takenWhole_hierarchyMembers {root : DeclId} (walkable : pass.project.Walkable root)
    (search : pass.services = pass.project.services) {seen : List DeclId} (distinct : seen.Nodup)
    (taken : pass.project.TakenWhole seen root) {id : DeclId} (new : id ∉ seen)
    (joined : pass.project.Joined id) :
    pass.project.TakenWhole (pass.hierarchyMembers seen id).2 root := by
  have grows : Grows pass id seen _ := grows_hierarchyMembers seen id
  intro member known inside other same
  by_cases here : pass.project.SameHierarchy root id
  · have takenHere : pass.project.TakenWhole seen id := fun early listed within further sameFurther =>
      taken early listed (here.trans within) further (here.trans sameFurther)
    have finds := finds_hierarchyMembers (walkable.of_same here) search distinct takenHere new joined
    exact (finds.after other).mpr (Or.inr (here.symm.trans same))
  · rcases grows.sound member known with early | reached
    · exact grows.kept (taken member early inside other same)
    · have there := sameHierarchy_of_reaches search reached
      exact absurd (inside.trans there.symm) here

end Relocation.Pass
