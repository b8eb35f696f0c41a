import Relocation.Proofs.Project.Children
set_option autoImplicit false

/-!
The usages that are collected for a list of elements.

The search goes down from the declarations that are named, and takes a step for every declaration of
the project. Each step leads to a later declaration, so nothing is nested too deep to be found. From
what is found the index leads to the references. A reference has one target, so it is found again only
if its target is, and that takes an element that is named twice or that lies in another one.
-/

namespace Relocation.Project

variable {p : Project}

theorem ListsAll.exists_member (all : p.ListsAll) {root id : DeclId}
    (inside : p.LiesIn (.decl id) (.decl root)) (different : id ≠ root) :
    ∃ member ∈ p.members root, p.LiesIn (.decl id) (.decl member) := by
  rcases Relation.ReflTransGen.cases_tail inside with same | ⟨next, below, around⟩
  · exact absurd (Element.decl.inj same).symm different
  · cases next with
    | decl member =>
      refine ⟨member, all.mem_members_iff.mpr ?_, below⟩
      cases parent : (p.decl member).parent <;> simp [around?, parent] at around
      rw [around]
    | reference id => cases LiesIn.of_reference below
    | file file => cases around

/-- Steps down lead to later declarations, so as many as there are indexes up to one are enough. -/
theorem mem_nestedWithin_of_liesIn (all : p.ListsAll) (ordered : p.Ordered) {depth : Nat}
    {root id : DeclId} (inside : p.LiesIn (.decl id) (.decl root)) (different : id ≠ root)
    (deep : id.index ≤ root.index + depth) : id ∈ p.nestedWithin depth root := by
  induction depth generalizing root with
  | zero =>
    obtain ⟨member, listed, below⟩ := all.exists_member inside different
    have later := ordered.owner member root (all.mem_members_iff.mp listed)
    have last := ordered.index_le_of_liesIn below
    omega
  | succ depth inductionHypothesis =>
    obtain ⟨member, listed, below⟩ := all.exists_member inside different
    have later := ordered.owner member root (all.mem_members_iff.mp listed)
    apply List.mem_append.mpr
    by_cases here : id = member
    · exact Or.inl (here ▸ listed)
    · exact Or.inr (List.mem_flatMap.mpr ⟨member, List.mem_reverse.mpr listed,
        inductionHypothesis below here (by omega)⟩)

theorem Built.mem_nested_iff (built : p.Built) {root id : DeclId} (known : id ∈ p.declIds) :
    id ∈ p.nested root ↔ id ≠ root ∧ p.LiesIn (.decl id) (.decl root) := by
  constructor
  · intro found
    refine ⟨?_, built.listsChildren.liesIn_of_mem_nestedWithin found⟩
    rintro rfl
    exact built.ordered.not_mem_nestedWithin_self built.listsChildren _ _ found
  · rintro ⟨different, inside⟩
    have bounded := p.mem_declIds.mp known
    exact mem_nestedWithin_of_liesIn built.listsAll built.ordered inside different (by omega)

/-- A declaration is listed, or stands at the top level of a listed file, or is nested in such a
declaration, however deep. -/
def Carries (p : Project) (elements : List Element) (id : DeclId) : Prop :=
  ∃ root, (.decl root ∈ elements ∨ ∃ file, .file file ∈ elements ∧ root ∈ p.topLevel file) ∧
    p.LiesIn (.decl id) (.decl root)

theorem mem_namedBy_iff {elements : List Element} {id : DeclId} :
    id ∈ p.namedBy elements ↔
      .decl id ∈ elements ∨ ∃ file, .file file ∈ elements ∧ id ∈ p.topLevel file := by
  unfold namedBy
  rw [List.mem_flatMap]
  constructor
  · rintro ⟨element, listed, found⟩
    cases element with
    | decl root => exact Or.inl (List.mem_singleton.mp found ▸ listed)
    | file file => exact Or.inr ⟨file, listed, found⟩
    | reference reference => cases found
  · rintro (listed | ⟨file, listed, found⟩)
    · exact ⟨.decl id, listed, List.mem_singleton_self id⟩
    · exact ⟨.file file, listed, found⟩

theorem Built.mem_declarationsIn_iff (built : p.Built) {elements : List Element} {id : DeclId}
    (known : id ∈ p.declIds) : id ∈ p.declarationsIn elements ↔ p.Carries elements id := by
  simp only [declarationsIn, List.mem_append, List.mem_flatMap, List.mem_reverse, Carries,
    ← mem_namedBy_iff]
  constructor
  · rintro (named | ⟨root, named, found⟩)
    · exact ⟨id, named, Relation.ReflTransGen.refl⟩
    · exact ⟨root, named, ((built.mem_nested_iff known).mp found).2⟩
  · rintro ⟨root, named, inside⟩
    by_cases here : id = root
    · exact Or.inl (here ▸ named)
    · exact Or.inr ⟨root, named, (built.mem_nested_iff known).mpr ⟨here, inside⟩⟩

/-- No element is listed twice, and none lies in another one, however deep. -/
structure Scattered (p : Project) (elements : List Element) : Prop where
  distinct : elements.Nodup
  apart : ∀ inner ∈ elements, ∀ outer ∈ elements, p.LiesIn inner outer → inner = outer

theorem namedBy_cons (element : Element) (rest : List Element) :
    p.namedBy (element :: rest) = p.namedBy [element] ++ p.namedBy rest := by
  simp [namedBy]

/-- Declarations that move are found for one named element after the other, in some order. -/
theorem declarationsIn_perm (elements : List Element) :
    (p.declarationsIn elements).Perm (elements.flatMap fun element => p.declarationsIn [element]) := by
  have apart (named : List DeclId) :
      (named ++ named.reverse.flatMap p.nested).Perm (named ++ named.flatMap p.nested) :=
    (List.Perm.flatMap_right p.nested (List.reverse_perm named)).append_left named
  induction elements with
  | nil => exact List.Perm.refl _
  | cons element rest inductionHypothesis =>
    rw [List.flatMap_cons]
    refine List.Perm.trans ?_ (inductionHypothesis.append_left _)
    unfold declarationsIn
    rw [namedBy_cons]
    refine (apart _).trans (List.Perm.trans ?_ ((apart _).symm.append (apart _).symm))
    rw [List.flatMap_append]
    simp only [List.append_assoc]
    apply List.Perm.append_left
    simp only [← List.append_assoc]
    exact List.perm_append_comm.append_right _

theorem Built.nodup_declarationsIn_singleton (built : p.Built) (element : Element) :
    (p.declarationsIn [element]).Nodup := by
  cases element with
  | decl root =>
    have named : p.namedBy [.decl root] = [root] := rfl
    unfold declarationsIn
    rw [named]
    apply built.ordered.nodup_with_nested built.listsChildren (List.nodup_singleton root)
      (p.decl root).parent
    · intro other listed
      rw [List.mem_singleton.mp listed]
    · exact built.ordered.nodup_nestedWithin built.listsChildren p.decls.size
  | file file => exact built.ordered.nodup_declarationsIn_file built.listsChildren file
  | reference reference => exact List.nodup_nil

theorem Scattered.nodup_declarationsIn (built : p.Built) {elements : List Element}
    (scattered : p.Scattered elements) : (p.declarationsIn elements).Nodup := by
  rw [(declarationsIn_perm elements).nodup_iff]
  apply List.nodup_flatMap.mpr
  refine ⟨fun element _ => built.nodup_declarationsIn_singleton element, ?_⟩
  apply scattered.distinct.imp_of_mem
  intro one other listed otherListed different id inOne inOther
  -- Of two elements around the same declaration one lies in the other.
  have around {element : Element} (found : id ∈ p.declarationsIn [element]) :
      p.LiesIn (.decl id) element := by
    obtain ⟨_, member, inside⟩ := built.listsChildren.liesIn_of_mem_declarationsIn found
    exact List.mem_singleton.mp member ▸ inside
  have total := Relation.ReflTransGen.total_of_right_unique
    (r := fun element around => p.around? element = some around)
    (fun _ _ _ left right => Option.some.inj (left.symm.trans right)) (around inOne)
    (around inOther)
  rcases total with inside | inside
  · exact different (scattered.apart one listed other otherListed inside)
  · exact different (scattered.apart other otherListed one listed inside).symm

/-- What a usage is of, whoever collects it. -/
def pairOfUsage (usage : Usage) : RefId × DeclId := (usage.reference, usage.referenced)

theorem mem_referencesTo_iff (listed : p.Listed) {id : DeclId} {reference : RefId} :
    reference ∈ p.services.referencesTo id ↔ (p.reference reference).target = some id := by
  constructor
  · exact fun found => (p.mem_referencesTo found).2
  · intro resolved
    rw [p.referencesTo_eq (listed.target reference id resolved), List.mem_filter, beq_iff_eq]
    exact ⟨mem_refIds_of_target resolved, resolved⟩

theorem Built.mem_pairs_iff (built : p.Built) {elements : List Element} {reference : RefId}
    {referenced : DeclId} :
    (reference, referenced) ∈ (p.collectUsages p.services elements).map pairOfUsage ↔
      p.Carries elements referenced ∧ (p.reference reference).target = some referenced := by
  have target (resolved : (p.reference reference).target = some referenced) :
      referenced ∈ p.declarationsIn elements ↔ p.Carries elements referenced :=
    built.mem_declarationsIn_iff (built.listed.target reference referenced resolved)
  simp only [collectUsages, List.mem_map, List.mem_flatMap, mem_referencesTo_iff built.listed]
  constructor
  · rintro ⟨_, ⟨id, found, other, resolved, rfl⟩, same⟩
    cases same
    exact ⟨(target resolved).mp found, resolved⟩
  · rintro ⟨carried, resolved⟩
    exact ⟨_, ⟨referenced, (target resolved).mpr carried, reference, resolved, rfl⟩, rfl⟩

theorem Scattered.nodup_pairs (built : p.Built) {elements : List Element}
    (scattered : p.Scattered elements) :
    ((p.collectUsages p.services elements).map pairOfUsage).Nodup := by
  unfold collectUsages
  rw [List.map_flatMap]
  apply List.nodup_flatMap.mpr
  constructor
  · intro referenced _
    rw [List.map_map]
    apply (p.nodup_referencesTo referenced).map
    intro one other same
    exact congrArg Prod.fst same
  · apply (scattered.nodup_declarationsIn built).imp
    intro one other different pair ofOne ofOther
    obtain ⟨usage, found, rfl⟩ := List.mem_map.mp ofOne
    obtain ⟨otherUsage, otherFound, same⟩ := List.mem_map.mp ofOther
    obtain ⟨reference, -, rfl⟩ := List.mem_map.mp found
    obtain ⟨otherReference, -, rfl⟩ := List.mem_map.mp otherFound
    exact different (congrArg Prod.snd same).symm

/-- The usages collected for a list of elements are those of the declarations that it carries, each
marked as internal if it lies in the list. -/
structure CollectsExactly (p : Project) (elements : List Element) (usages : List Usage) : Prop where
  pairs : ∀ reference referenced, (reference, referenced) ∈ usages.map pairOfUsage ↔
    p.Carries elements referenced ∧ (p.reference reference).target = some referenced
  internal : ∀ usage ∈ usages, usage.isInternal = true ↔
    ∃ element ∈ elements, p.isAncestor element (.reference usage.reference) = true
  once : p.Scattered elements → (usages.map pairOfUsage).Nodup

theorem usages_collected_exactly (built : p.Built) (elements : List Element) :
    p.CollectsExactly elements (p.collectUsages p.services elements) where
  pairs := fun _ _ => built.mem_pairs_iff
  internal := by
    intro usage collected
    obtain ⟨referenced, -, found⟩ := List.mem_flatMap.mp collected
    obtain ⟨reference, -, rfl⟩ := List.mem_map.mp found
    exact List.any_eq_true
  once := Scattered.nodup_pairs built

/-- Class `Shape` has a class `Part` with a function `area`, which refers to `Shape`. Another file has
functions `draw`, which refers to `area`, and `show`, which refers to `draw`, and imports `Shape`. -/
def sketchCalls : List BuilderCall := [
  .module "core" .jvm, .directory "a" (.module ⟨0⟩ false) ⟨"a"⟩,
  .file ⟨0⟩ "Shape.kt" none, .file ⟨0⟩ "Draw.kt" none,
  .decl { name := "Shape", kind := .plainClass, parent := .file ⟨0⟩ },
  .decl { name := "Part", kind := .plainClass, parent := .decl ⟨0⟩ },
  .decl { name := "area", kind := .function, parent := .decl ⟨1⟩ },
  .decl { name := "draw", kind := .function, parent := .file ⟨1⟩ },
  .decl { name := "show", kind := .function, parent := .file ⟨1⟩ },
  .referenceFrom ⟨2⟩ ⟨0⟩ {}, .referenceFrom ⟨3⟩ ⟨2⟩ {}, .referenceFrom ⟨4⟩ ⟨3⟩ {},
  .reference ⟨1⟩ none (some ⟨0⟩) { inImport := true }]

def sketches : Project := (run? {} sketchCalls).getD {}

theorem scattered_sketches : sketches.Scattered [.file ⟨0⟩, .decl ⟨3⟩] where
  distinct := by decide
  apart := by
    have shallow : sketches.NestedBelow (2 + 1) := by decide
    have walked : ∀ inner ∈ [.file ⟨0⟩, .decl ⟨3⟩], ∀ outer ∈ [.file ⟨0⟩, .decl ⟨3⟩],
        sketches.isAncestor outer inner = true → inner = outer := by decide +kernel
    intro inner listed outer otherListed inside
    exact walked inner listed outer otherListed ((isAncestor_iff shallow (by decide)).mpr inside)

/-- The file of `Shape` and `draw` carry four usages, two of which lie outside of both. -/
theorem collected_exactly_sketches : sketches.Built ∧ ∃ usages,
    sketches.collectUsages sketches.services [.file ⟨0⟩, .decl ⟨3⟩] = usages ∧
    usages = [⟨⟨0⟩, ⟨0⟩, true⟩, ⟨⟨3⟩, ⟨0⟩, false⟩, ⟨⟨2⟩, ⟨3⟩, false⟩, ⟨⟨1⟩, ⟨2⟩, true⟩] ∧
    sketches.CollectsExactly [.file ⟨0⟩, .decl ⟨3⟩] usages ∧ (usages.map pairOfUsage).Nodup := by
  have built : sketches.Built := ⟨sketchCalls, rfl⟩
  have collected := usages_collected_exactly built [.file ⟨0⟩, .decl ⟨3⟩]
  exact ⟨built, _, rfl, by decide +kernel, collected, collected.once scattered_sketches⟩

end Relocation.Project
