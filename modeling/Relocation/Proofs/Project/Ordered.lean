import Relocation.Proofs.Project.Built
set_option autoImplicit false

/-!
Declarations in the order in which they are made.

A declaration is added behind everything that is there, and listed last by what it lies in. So what is
around a declaration comes before it, lists run in ascending order, and going down the lists comes to
no declaration twice.
-/

namespace Relocation.Project

/-- What is around a declaration comes before it, and children are listed in order of creation. -/
structure Ordered (p : Project) : Prop where
  owner : ∀ id owner, (p.decl id).parent = .decl owner → owner.index < id.index
  members : ∀ owner, (p.members owner).Pairwise fun one other => one.index < other.index
  topLevel : ∀ file, (p.topLevel file).Pairwise fun one other => one.index < other.index

variable {p q : Project}

namespace Ordered

theorem addDecl (ordered : p.Ordered) (lists : p.ListsChildren) {data : Declaration}
    (bare : data.members = #[]) (offered : p.Offers data.parent) : (p.addDecl data).Ordered := by
  have behind {children : List DeclId} (early : ∀ child ∈ children, child ∈ p.declIds)
      (sorted : children.Pairwise fun one other => one.index < other.index) (added : Prop)
      [Decidable added] : (children ++ if added then [p.nextDecl] else []).Pairwise
        fun one other => one.index < other.index := by
    split
    · refine List.pairwise_append.mpr ⟨sorted, List.pairwise_singleton .., ?_⟩
      intro child listed new isNew
      rw [List.mem_singleton.mp isNew]
      exact (mem_declIds p).mp (early child listed)
    · simpa using sorted
  constructor
  · intro id owner parent
    rw [parent_addDecl] at parent
    split at parent
    next new =>
      rw [parent] at offered
      rw [new]
      exact (mem_declIds p).mp offered
    · exact ordered.owner id owner parent
  · intro owner
    rw [members_addDecl offered]
    split
    · simp [bare]
    · exact behind (fun child listed => (lists.members owner child listed).1)
        (ordered.members owner) _
  · intro file
    rw [topLevel_addDecl offered]
    exact behind (fun child listed => (lists.topLevel file child listed).1) (ordered.topLevel file) _

theorem oneCall (ordered : p.Ordered) (lists : p.ListsChildren) (made : p.OneCall q) :
    q.Ordered := by
  rcases made.places with same | ⟨data, bare, offered, rfl⟩
  · constructor
    · simpa only [same.parent] using ordered.owner
    · simpa only [same.members] using ordered.members
    · simpa only [same.topLevel] using ordered.topLevel
  · exact ordered.addDecl lists bare offered

end Ordered

theorem Built.ordered (built : p.Built) : p.Ordered := by
  obtain ⟨calls, made⟩ := built
  have start : ({} : Project).ListsChildren ∧ ({} : Project).Ordered := by
    refine ⟨listsChildren_empty, ?_, fun _ => List.Pairwise.nil, fun _ => List.Pairwise.nil⟩
    intro id owner parent
    cases parent
  refine (run?_induction (motive := fun p => p.ListsChildren ∧ p.Ordered) start ?_ made).2
  intro p call kept ready
  have step := call.oneCall ready
  exact ⟨kept.1.oneCall step, kept.2.oneCall kept.1 step⟩

namespace Ordered

variable (ordered : p.Ordered)
include ordered

theorem index_le_of_liesIn {inner outer : DeclId} (inside : p.LiesIn (.decl inner) (.decl outer)) :
    outer.index ≤ inner.index := by
  have general {element : Element} (inside : p.LiesIn element (.decl outer)) :
      ∀ id, element = .decl id → outer.index ≤ id.index := by
    induction inside using Relation.ReflTransGen.head_induction_on with
    | refl =>
      rintro id same
      cases same
      exact Nat.le_refl _
    | @head element next around further inductionHypothesis =>
      rintro id rfl
      cases parent : (p.decl id).parent with
      | file home =>
        have next_eq : next = .file home := by simpa [around?, parent] using around.symm
        subst next_eq
        cases LiesIn.of_file further
      | decl owner =>
        have next_eq : next = .decl owner := by simpa [around?, parent] using around.symm
        exact Nat.le_trans (inductionHypothesis owner next_eq)
          (Nat.le_of_lt (ordered.owner id owner parent))
  exact general inside inner rfl

/-- What lies in two declarations with the same things around them lies in one declaration. -/
theorem eq_of_siblings {one other id : DeclId}
    (siblings : (p.decl one).parent = (p.decl other).parent)
    (inOne : p.LiesIn (.decl id) (.decl one)) (inOther : p.LiesIn (.decl id) (.decl other)) :
    one = other := by
  -- Of two things around a third, one lies in the other, and strictly so it comes later.
  have later {first second : DeclId} (siblings : (p.decl first).parent = (p.decl second).parent)
      (inside : p.LiesIn (.decl first) (.decl second)) : first = second := by
    rcases inside.cases_around with same | ⟨next, around, further⟩
    · exact Element.decl.inj same
    · have around' : p.around? (.decl second) = some next := by
        simpa [around?, siblings] using around
      cases next with
      | decl owner =>
        have parent : (p.decl second).parent = .decl owner := by
          cases parent : (p.decl second).parent <;> simp [around?, parent] at around'
          rw [around']
        have above := ordered.owner second owner parent
        have below := ordered.index_le_of_liesIn further
        omega
      | file file => cases further.of_file
      | reference id =>
        cases parent : (p.decl second).parent <;> simp [around?, parent] at around'
  have total := Relation.ReflTransGen.total_of_right_unique
    (r := fun element around => p.around? element = some around)
    (fun _ _ _ left right => Option.some.inj (left.symm.trans right)) inOne inOther
  rcases total with inside | inside
  · exact later siblings inside
  · exact (later siblings.symm inside).symm

theorem nodup_members (owner : DeclId) : (p.members owner).Nodup := by
  apply (ordered.members owner).imp
  rintro one other before rfl
  exact Nat.lt_irrefl _ before

theorem nodup_topLevel (file : FileId) : (p.topLevel file).Nodup := by
  apply (ordered.topLevel file).imp
  rintro one other before rfl
  exact Nat.lt_irrefl _ before

variable (lists : p.ListsChildren)
include lists

theorem not_mem_nestedWithin_self (depth : Nat) (root : DeclId) :
    root ∉ p.nestedWithin depth root := by
  intro found
  cases depth with
  | zero => cases found
  | succ depth =>
    have inMember : ∃ member ∈ p.members root, p.LiesIn (.decl root) (.decl member) := by
      rcases List.mem_append.mp found with here | below
      · exact ⟨root, here, Relation.ReflTransGen.refl⟩
      · obtain ⟨member, listed, found⟩ := List.mem_flatMap.mp below
        exact ⟨member, List.mem_reverse.mp listed, lists.liesIn_of_mem_nestedWithin found⟩
    obtain ⟨member, listed, inside⟩ := inMember
    have below := ordered.owner member root (lists.members root member listed).2
    have above := ordered.index_le_of_liesIn inside
    omega

theorem nodup_with_nested {roots : List DeclId} (distinct : roots.Nodup) (parent : Parent)
    (siblings : ∀ root ∈ roots, (p.decl root).parent = parent) {depth : Nat}
    (below : ∀ root, (p.nestedWithin depth root).Nodup) :
    (roots ++ roots.reverse.flatMap (p.nestedWithin depth)).Nodup := by
  apply List.Nodup.append distinct
  · refine List.nodup_flatMap.mpr ⟨fun root _ => below root, ?_⟩
    apply (List.nodup_reverse.mpr distinct).imp_of_mem
    intro one other listed otherListed different id inOne inOther
    apply different
    refine ordered.eq_of_siblings ?_ (lists.liesIn_of_mem_nestedWithin inOne)
      (lists.liesIn_of_mem_nestedWithin inOther)
    rw [siblings one (List.mem_reverse.mp listed), siblings other (List.mem_reverse.mp otherListed)]
  · intro id listed nested
    obtain ⟨root, member, found⟩ := List.mem_flatMap.mp nested
    have same : (p.decl id).parent = (p.decl root).parent := by
      rw [siblings id listed, siblings root (List.mem_reverse.mp member)]
    obtain rfl := ordered.eq_of_siblings same Relation.ReflTransGen.refl
      (lists.liesIn_of_mem_nestedWithin found)
    exact ordered.not_mem_nestedWithin_self lists depth id found

theorem nodup_nestedWithin (depth : Nat) (root : DeclId) : (p.nestedWithin depth root).Nodup := by
  induction depth generalizing root with
  | zero => exact List.nodup_nil
  | succ depth inductionHypothesis =>
    exact ordered.nodup_with_nested lists (ordered.nodup_members root) (.decl root)
      (fun member listed => (lists.members root member listed).2) inductionHypothesis

/-- A file that moves brings each of its declarations once. -/
theorem nodup_declarationsIn_file (file : FileId) : (p.declarationsIn [.file file]).Nodup := by
  have named : p.namedBy [.file file] = p.topLevel file := List.append_nil _
  unfold declarationsIn
  rw [named]
  exact ordered.nodup_with_nested lists (ordered.nodup_topLevel file) (.file file)
    (fun member listed => (lists.topLevel file member listed).2)
    (ordered.nodup_nestedWithin lists p.decls.size)

end Ordered

end Relocation.Project
