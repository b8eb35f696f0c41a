import Relocation.Proofs.Sealed.Hierarchy
import Relocation.Proofs.Stack
set_option autoImplicit false

/-!
The descent from a sealed class under the strict rule.

It asks for the inheritors of one class after the other, beginning at the top. A class is marked as
soon as it is found, the top is never noted itself, and only sealed classes are asked about in their
turn. So no sealed class is asked about twice, however often a search answers with it and whatever
circles the inheritors go round in. As sealed classes are declared, the descent comes to its end,
and has then found what comes down from the top along sealed classes, each class once.
-/

namespace Relocation

namespace Pass

variable (pass : Pass)

/-- Comes down from a class along inheritors. All classes before the last one are sealed. -/
def ComesDown : DeclId → DeclId → Prop :=
  Relation.ReflTransGen fun parent child =>
    pass.isSealed parent = true ∧ child ∈ pass.services.directInheritors parent

/-- A descent under way: the sealed classes still to ask about, the next one first, and the classes
found so far, the first one first. -/
structure Descent where
  pending : List DeclId
  found : List DeclId

variable (root : DeclId)

/-- Notes an inheritor, unless it is the top or was found before. -/
def Descent.note (descent : Descent) (child : DeclId) : Descent :=
  if child = root ∨ child ∈ descent.found then descent
  else
    { pending := if pass.isSealed child then child :: descent.pending else descent.pending
      found := descent.found ++ [child] }

def Descent.round : Descent → Descent
  | ⟨[], found⟩ => ⟨[], found⟩
  | ⟨current :: rest, found⟩ =>
    (pass.services.directInheritors current).foldl (Descent.note pass root) ⟨rest, found⟩

/-- All inheritors that are not marked yet, each once. -/
structure NewAmong (children marked fresh : List DeclId) : Prop where
  mem : ∀ id, id ∈ fresh ↔ id ∈ children ∧ id ∉ marked
  distinct : fresh.Nodup

/-- What holds of a descent after a number of rounds. Each sealed class found was asked about in one
of them or is pending. -/
structure UnderWay (rounds : Nat) (descent : Descent) : Prop where
  distinct : (root :: descent.found).Nodup
  below : ∀ id ∈ root :: descent.found, pass.ComesDown root id
  pending : ∀ id ∈ descent.pending, id ∈ root :: descent.found ∧ pass.isSealed id = true
  asked : ∀ id ∈ root :: descent.found, pass.isSealed id = true →
    id ∈ descent.pending ∨
      ∀ child ∈ pass.services.directInheritors id, child ∈ root :: descent.found
  counted : rounds + descent.pending.length =
    ((root :: descent.found).filter pass.isSealed).length

variable {pass root}

namespace NewAmong

variable {child : DeclId} {rest marked fresh : List DeclId}

theorem of_marked (known : child ∈ marked) (new : NewAmong rest marked fresh) :
    NewAmong (child :: rest) marked fresh where
  mem := by
    intro id
    rw [new.mem, List.mem_cons, and_congr_left_iff]
    intro unmarked
    have other : id ≠ child := fun same => unmarked (same ▸ known)
    rw [or_iff_right other]
  distinct := new.distinct

theorem of_new (unknown : child ∉ marked) (new : NewAmong rest (marked ++ [child]) fresh) :
    NewAmong (child :: rest) marked (child :: fresh) where
  mem := by
    intro id
    by_cases same : id = child
    · simp [same, unknown]
    · simp [same, new.mem]
  distinct := by
    have once : child ∉ fresh := fun again =>
      ((new.mem child).mp again).2 (List.mem_append_right _ (List.mem_singleton_self child))
    exact List.nodup_cons.mpr ⟨once, new.distinct⟩

variable {children : List DeclId} (new : NewAmong children marked fresh)
include new

theorem disjoint : List.Disjoint marked fresh :=
  fun id early late => ((new.mem id).mp late).2 early

theorem subset_append : children ⊆ marked ++ fresh := by
  intro id listed
  by_cases known : id ∈ marked
  · exact List.mem_append_left _ known
  · exact List.mem_append_right _ ((new.mem id).mpr ⟨listed, known⟩)

end NewAmong

theorem Descent.note_of_marked {descent : Descent} {child : DeclId}
    (marked : child ∈ root :: descent.found) :
    Descent.note pass root descent child = descent :=
  if_pos (List.mem_cons.mp marked)

theorem Descent.note_of_new {descent : Descent} {child : DeclId}
    (new : child ∉ root :: descent.found) :
    Descent.note pass root descent child =
      ⟨if pass.isSealed child then child :: descent.pending else descent.pending,
        descent.found ++ [child]⟩ :=
  if_neg fun marked => new (List.mem_cons.mpr marked)

variable (pass root) in
/-- The inheritors of a class add what is new among them. The last sealed one comes next. -/
theorem foldl_note (children : List DeclId) (descent : Descent) :
    ∃ fresh, NewAmong children (root :: descent.found) fresh ∧
      children.foldl (Descent.note pass root) descent =
        ⟨(fresh.filter pass.isSealed).reverse ++ descent.pending, descent.found ++ fresh⟩ := by
  induction children generalizing descent with
  | nil => exact ⟨[], ⟨by simp, List.nodup_nil⟩, by simp⟩
  | cons child rest inductionHypothesis =>
    rw [List.foldl_cons]
    by_cases marked : child ∈ root :: descent.found
    · obtain ⟨fresh, new, after⟩ := inductionHypothesis descent
      exact ⟨fresh, new.of_marked marked, by rw [Descent.note_of_marked marked, after]⟩
    · obtain ⟨fresh, new, after⟩ := inductionHypothesis (Descent.note pass root descent child)
      rw [Descent.note_of_new marked] at new after ⊢
      refine ⟨child :: fresh, new.of_new marked, ?_⟩
      rw [after]
      cases isSealed : pass.isSealed child <;> simp [isSealed]

/-- A round marks what is new below a class, which is then no longer pending. -/
theorem UnderWay.round {rounds : Nat} {current : DeclId} {rest found : List DeclId}
    (before : pass.UnderWay root rounds ⟨current :: rest, found⟩) :
    pass.UnderWay root (rounds + 1) (Descent.round pass root ⟨current :: rest, found⟩) := by
  obtain ⟨fresh, new, after⟩ :=
    foldl_note pass root (pass.services.directInheritors current) ⟨rest, found⟩
  rw [Descent.round, after]
  have split : root :: (found ++ fresh) = (root :: found) ++ fresh := rfl
  obtain ⟨marked, isSealed⟩ := before.pending current (List.mem_cons_self ..)
  constructor
  case distinct =>
    rw [split]
    exact before.distinct.append new.distinct new.disjoint
  case below =>
    rw [split, List.forall_mem_append]
    refine ⟨before.below, fun id late => ?_⟩
    exact (before.below current marked).tail ⟨isSealed, ((new.mem id).mp late).1⟩
  case pending =>
    intro id listed
    rw [split]
    rcases List.mem_append.mp listed with late | early
    · obtain ⟨late, sealedToo⟩ := List.mem_filter.mp (List.mem_reverse.mp late)
      exact ⟨List.mem_append_right _ late, sealedToo⟩
    · obtain ⟨marked, sealedToo⟩ := before.pending id (List.mem_cons_of_mem _ early)
      exact ⟨List.mem_append_left _ marked, sealedToo⟩
  case asked =>
    intro id listed sealedToo
    rw [split] at listed ⊢
    rcases List.mem_append.mp listed with early | late
    · rcases before.asked id early sealedToo with next | done
      · rcases List.mem_cons.mp next with rfl | later
        · exact Or.inr fun child inherits => new.subset_append inherits
        · exact Or.inl (List.mem_append_right _ later)
      · exact Or.inr fun child inherits => List.mem_append_left _ (done child inherits)
    · have noted : id ∈ (fresh.filter pass.isSealed).reverse :=
        List.mem_reverse.mpr (List.mem_filter.mpr ⟨late, sealedToo⟩)
      exact Or.inl (List.mem_append_left _ noted)
  case counted =>
    have counted := before.counted
    rw [split, List.filter_append]
    simp only [List.length_append, List.length_reverse, List.length_cons] at counted ⊢
    omega

theorem underWay_start (isSealed : pass.isSealed root = true) :
    pass.UnderWay root 0 ⟨[root], []⟩ where
  distinct := List.nodup_singleton root
  below := by
    intro id listed
    rw [List.mem_singleton.mp listed]
    exact Relation.ReflTransGen.refl
  pending := by
    intro id listed
    exact ⟨listed, List.mem_singleton.mp listed ▸ isSealed⟩
  asked := fun _ listed _ => Or.inl listed
  counted := by simp [isSealed]

/-- There are no more rounds than declarations. -/
theorem UnderWay.rounds_le {rounds : Nat} {descent : Descent}
    (underWay : pass.UnderWay root rounds descent) : rounds ≤ pass.project.decls.size := by
  have declared : (root :: descent.found).filter pass.isSealed ⊆ pass.project.declIds :=
    fun _ listed => Project.mem_declIds_of_isSealed (List.mem_filter.mp listed).2
  calc
    rounds ≤ rounds + descent.pending.length := Nat.le_add_right ..
    _ = ((root :: descent.found).filter pass.isSealed).length := underWay.counted
    _ ≤ pass.project.declIds.length :=
      (underWay.distinct.filter _).length_le_of_subset declared
    _ = pass.project.decls.size := pass.project.length_declIds

/-- A descent comes to its end. The induction is on the rounds that are left. -/
theorem UnderWay.comesToEnd {rounds : Nat} {descent : Descent}
    (underWay : pass.UnderWay root rounds descent) :
    ∃ last found, ComesTo (Descent.round pass root) descent ⟨[], found⟩ ∧
      pass.UnderWay root last ⟨[], found⟩ := by
  induction left : pass.project.decls.size + 1 - rounds generalizing rounds descent with
  | zero =>
    have bound := underWay.rounds_le
    omega
  | succ left inductionHypothesis =>
    obtain ⟨pending, found⟩ := descent
    cases pending with
    | nil => exact ⟨rounds, found, ComesTo.refl _, underWay⟩
    | cons current rest =>
      obtain ⟨last, all, further, ended⟩ := inductionHypothesis underWay.round (by omega)
      exact ⟨last, all, further.head, ended⟩

theorem UnderWay.mem_found_iff {rounds : Nat} {found : List DeclId}
    (ended : pass.UnderWay root rounds ⟨[], found⟩) {id : DeclId} :
    id ∈ found ↔ pass.ComesDown root id ∧ id ≠ root := by
  have complete (down : pass.ComesDown root id) : id ∈ root :: found := by
    induction down with
    | refl => exact List.mem_cons_self ..
    | tail _ inherits marked =>
      rcases ended.asked _ marked inherits.1 with pending | done
      · cases pending
      · exact done _ inherits.2
  constructor
  · intro member
    refine ⟨ended.below id (List.mem_cons_of_mem _ member), ?_⟩
    rintro rfl
    exact (List.nodup_cons.mp ended.distinct).1 member
  · rintro ⟨down, other⟩
    exact List.mem_of_ne_of_mem other (complete down)

theorem mem_sealedSubclasses_iff {id : DeclId} :
    id ∈ pass.sealedSubclasses root ↔ pass.ComesDown root id ∧ id ≠ root := by
  have inheritors (parent child : DeclId) :
      child ∈ (if pass.isSealed parent then pass.services.directInheritors parent else []) ↔
        pass.isSealed parent = true ∧ child ∈ pass.services.directInheritors parent := by
    cases pass.isSealed parent <;> simp
  have enough : Walk.Suffices (fun id =>
      if pass.isSealed id then pass.services.directInheritors id else [])
      pass.project.declDepth [] := by
    refine Project.suffices_declDepth (fun parent child inherits => ?_) []
    exact Project.mem_declIds_of_isSealed ((inheritors parent child).mp inherits).1
  simp only [sealedSubclasses, List.mem_filter, Walk.mem_reachable_iff _ enough,
    List.mem_singleton, exists_eq_left, bne_iff_ne, Walk.Reaches, inheritors, ComesDown]

theorem nodup_sealedSubclasses : (pass.sealedSubclasses root).Nodup :=
  (Walk.nodup_reachable _ _ [root]).filter _

/-- The descent from a class comes to its end, and what it has found is listed, in some order. That
is exactly what comes down from the class along sealed classes, without the class itself. -/
structure DescendsExactly (pass : Pass) (root : DeclId) : Prop where
  ends : ∃ found, ComesTo (Descent.round pass root) ⟨[root], []⟩ ⟨[], found⟩ ∧
    found.Perm (pass.sealedSubclasses root)
  exact : ∀ id, id ∈ pass.sealedSubclasses root ↔ pass.ComesDown root id ∧ id ≠ root
  once : (pass.sealedSubclasses root).Nodup

theorem sealed_descent_exact (isSealed : pass.isSealed root = true) :
    pass.DescendsExactly root where
  ends := by
    obtain ⟨_, found, ends, ended⟩ := (underWay_start isSealed).comesToEnd
    refine ⟨found, ends, ?_⟩
    have distinct := (List.nodup_cons.mp ended.distinct).2
    rw [List.perm_ext_iff_of_nodup distinct nodup_sealedSubclasses]
    intro id
    rw [ended.mem_found_iff, mem_sealedSubclasses_iff]
  exact := fun _ => mem_sealedSubclasses_iff
  once := nodup_sealedSubclasses

/-- `Expr` and `Binary` are sealed. The search answers with `Binary` twice, leads from there back to
both of them, and from `Plus`, which is open, to `Binary` and to `Sum`. -/
def circling : Pass :=
  let declared (name : String) (modality : Modality) : Declaration :=
    { name, kind := .plainClass, parent := .file ⟨0⟩, modality }
  let p : Project := { decls := #[declared "Expr" .sealed, declared "Binary" .sealed,
    declared "Plus" .inheritable, declared "Const" .final, declared "Sum" .final] }
  let directInheritors : DeclId → List DeclId
    | ⟨0⟩ => [⟨1⟩, ⟨3⟩, ⟨1⟩]
    | ⟨1⟩ => [⟨2⟩, ⟨0⟩, ⟨1⟩, ⟨3⟩]
    | ⟨2⟩ => [⟨1⟩, ⟨4⟩]
    | _ => []
  .ofDecls p { p.services with directInheritors } {} (.directory ⟨0⟩ ⟨"b"⟩) []

/-- `Sum` is not listed, as only an open class leads to it. -/
theorem sealed_descent_circling :
    circling.isSealed ⟨0⟩ = true ∧ circling.DescendsExactly ⟨0⟩ ∧
      circling.sealedSubclasses ⟨0⟩ = [⟨1⟩, ⟨2⟩, ⟨3⟩] :=
  ⟨by decide, sealed_descent_exact (by decide), by decide⟩

end Pass

end Relocation
