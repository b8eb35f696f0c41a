import Mathlib
import Relocation.Project.Build
import Relocation.Proofs.Sealed.Entry
set_option autoImplicit false

/-!
The relaxed rule takes sealed hierarchies as wholes.

What a pass has seen between two of its walks is a union of hierarchies. So a walk never finds a
part of its own hierarchy taken by an earlier one, wherever it enters it, and no hierarchy is
walked through twice.
-/

namespace Relocation.Pass

variable {pass : Pass}

/-- Classes seen between two walks of a pass. -/
structure Seen (pass : Pass) (ids : List DeclId) : Prop where
  distinct : ids.Nodup
  whole : pass.project.WholeHierarchies ids

theorem seen_nil (pass : Pass) : Seen pass [] :=
  ⟨List.nodup_nil, by simp [Project.WholeHierarchies]⟩

/-- A walk from a class finds its whole hierarchy, once each, and has seen just that besides. -/
structure Covers (pass : Pass) (seen : List DeclId) (id : DeclId) : Prop where
  distinct : (pass.hierarchyMembers seen id).1.Nodup
  members : ∀ member,
    member ∈ (pass.hierarchyMembers seen id).1 ↔ pass.project.SameHierarchy id member
  after : ∀ other, other ∈ (pass.hierarchyMembers seen id).2 ↔
    other ∈ seen ∨ pass.project.SameHierarchy id other

theorem covers_hierarchyMembers (plain : pass.project.PlainHierarchies)
    (search : pass.services = pass.project.services) {seen : List DeclId} (before : Seen pass seen)
    {id : DeclId} (new : id ∉ seen) (joined : pass.project.Joined id) :
    Covers pass seen id ∧ Seen pass (pass.hierarchyMembers seen id).2 := by
  have taken := Project.wholeHierarchies_iff.mp before.whole
  have finds := finds_hierarchyMembers (plain.walkable id) search before.distinct (taken id) new
    joined
  refine ⟨⟨finds.distinct, ?_, finds.after⟩, ?_, ?_⟩
  · intro member
    refine (finds.members member).trans (and_iff_left_of_imp fun same => ?_)
    obtain ⟨other, linked⟩ := same.joined joined
    exact plain.source linked
  · exact (grows_hierarchyMembers seen id).distinct before.distinct
  · exact Project.wholeHierarchies_iff.mpr fun root =>
      takenWhole_hierarchyMembers (plain.walkable root) search before.distinct (taken root) new
        joined

section Starts

variable (plain : pass.project.PlainHierarchies)
  (search : pass.services = pass.project.services)
include plain search

theorem walkStarts_cons {seen : List DeclId} (before : Seen pass seen) (element : DeclId)
    (rest : List DeclId) :
    (pass.walkStarts seen (element :: rest) = pass.walkStarts seen rest ∧
      ((pass.project.decl element).kind.isClassLike = true → pass.inHierarchy element = true →
        element ∈ seen)) ∨
    (pass.walkStarts seen (element :: rest) =
        (seen, element) :: pass.walkStarts (pass.hierarchyMembers seen element).2 rest ∧
      Covers pass seen element ∧ Seen pass (pass.hierarchyMembers seen element).2) := by
  refine (walkStarts_cases seen element rest).imp_right ?_
  rintro ⟨started, -, new, joined⟩
  exact ⟨started, covers_hierarchyMembers plain search before new
    (joined_of_inHierarchy search joined)⟩

theorem seen_walkStarts {seen elements : List DeclId} (before : Seen pass seen)
    {start : List DeclId × DeclId} (member : start ∈ pass.walkStarts seen elements) :
    seen ⊆ start.1 ∧ Seen pass start.1 := by
  induction elements generalizing seen with
  | nil => cases member
  | cons element rest inductionHypothesis =>
    rcases walkStarts_cons plain search before element rest with
      ⟨passed, -⟩ | ⟨started, covers, after⟩
    · rw [passed] at member
      exact inductionHypothesis before member
    · rw [started] at member
      rcases List.mem_cons.mp member with rfl | later
      · exact ⟨List.Subset.refl seen, before⟩
      · obtain ⟨kept, atStart⟩ := inductionHypothesis after later
        exact ⟨fun other known => kept ((covers.after other).mpr (Or.inl known)), atStart⟩

/-- Every walk of a pass covers the hierarchy of its start. -/
theorem covers_walkStarts {seen elements : List DeclId} (before : Seen pass seen)
    {start : List DeclId × DeclId} (member : start ∈ pass.walkStarts seen elements) :
    Covers pass start.1 start.2 ∧ Seen pass (pass.hierarchyMembers start.1 start.2).2 := by
  obtain ⟨-, -, new, joined⟩ := pass.mem_walkStarts member
  exact covers_hierarchyMembers plain search (seen_walkStarts plain search before member).2 new
    (joined_of_inHierarchy search joined)

theorem pairwise_walkStarts {seen : List DeclId} (elements : List DeclId)
    (before : Seen pass seen) :
    (pass.walkStarts seen elements).Pairwise fun earlier later =>
      ¬ pass.project.SameHierarchy earlier.2 later.2 := by
  induction elements generalizing seen with
  | nil => exact List.Pairwise.nil
  | cons element rest inductionHypothesis =>
    rcases walkStarts_cons plain search before element rest with
      ⟨passed, -⟩ | ⟨started, covers, after⟩
    · rw [passed]
      exact inductionHypothesis before
    · rw [started]
      refine List.Pairwise.cons ?_ (inductionHypothesis after)
      intro later member same
      have known := (seen_walkStarts plain search after member).1
        ((covers.after later.2).mpr (Or.inr same))
      exact (pass.mem_walkStarts member).2.2.1 known

theorem exists_walkStarts {seen elements : List DeclId} (before : Seen pass seen)
    {element : DeclId} (listed : element ∈ elements)
    (classLike : (pass.project.decl element).kind.isClassLike = true)
    (joined : pass.inHierarchy element = true) :
    element ∈ seen ∨
      ∃ start ∈ pass.walkStarts seen elements, pass.project.SameHierarchy start.2 element := by
  induction elements generalizing seen with
  | nil => cases listed
  | cons first rest inductionHypothesis =>
    rcases walkStarts_cons plain search before first rest with
      ⟨passed, known⟩ | ⟨started, covers, after⟩
    · rw [passed]
      rcases List.mem_cons.mp listed with rfl | later
      · exact Or.inl (known classLike joined)
      · exact inductionHypothesis before later
    · rw [started]
      rcases List.mem_cons.mp listed with rfl | later
      · exact Or.inr ⟨_, List.mem_cons_self .., Project.SameHierarchy.refl _⟩
      · rcases inductionHypothesis after later with known | ⟨start, member, same⟩
        · rcases (covers.after element).mp known with early | same
          · exact Or.inl early
          · exact Or.inr ⟨_, List.mem_cons_self .., same⟩
        · exact Or.inr ⟨start, List.mem_cons_of_mem _ member, same⟩

theorem othersFrom_ne_nil {seen elements : List DeclId} (before : Seen pass seen)
    {start : List DeclId × DeclId} (member : start ∈ pass.walkStarts seen elements) :
    pass.othersFrom start.1 start.2 ≠ [] := by
  obtain ⟨covers, -⟩ := covers_walkStarts plain search before member
  obtain ⟨-, -, -, joined⟩ := pass.mem_walkStarts member
  obtain ⟨other, linked⟩ := joined_of_inHierarchy search joined
  have found : other ∈ pass.othersFrom start.1 start.2 := by
    refine List.mem_filter.mpr ⟨(covers.members other).mpr (.of_linked linked), ?_⟩
    simpa using plain.ne_of_linked linked
  exact List.ne_nil_of_mem found

end Starts

theorem pairwise_startFindings (start : List DeclId × DeclId) (apart : Finding → Finding → Prop) :
    (pass.startFindings start).Pairwise apart := by
  unfold startFindings
  split
  · exact List.Pairwise.nil
  · cases pass.relaxedConflict? start.2 (pass.othersFrom start.1 start.2) <;> simp

/-- A pass under the relaxed rule takes hierarchies as wholes. Each of its walks finds all of one,
what it has seen is a union of them, and every class that it looks at is in one that it walks
through. It returns the findings of these walks, no more than one about each hierarchy. -/
structure CoversHierarchies (pass : Pass) : Prop where
  distinct : ∀ start ∈ pass.walkStarts [] pass.elements,
    (pass.hierarchyMembers start.1 start.2).1.Nodup
  members : ∀ start ∈ pass.walkStarts [] pass.elements, ∀ member,
    member ∈ (pass.hierarchyMembers start.1 start.2).1 ↔
      pass.project.SameHierarchy start.2 member
  whole : ∀ start ∈ pass.walkStarts [] pass.elements,
    pass.project.WholeHierarchies start.1 ∧
      pass.project.WholeHierarchies (pass.hierarchyMembers start.1 start.2).2
  covered : ∀ element ∈ pass.elements, (pass.project.decl element).kind.isClassLike = true →
    pass.inHierarchy element = true →
      ∃ start ∈ pass.walkStarts [] pass.elements, pass.project.SameHierarchy start.2 element
  returns : pass.hierarchyFindings =
    .ok ((pass.walkStarts [] pass.elements).flatMap pass.startFindings)
  findings : ∀ finding ∈ (pass.walkStarts [] pass.elements).flatMap pass.startFindings,
    ∃ start ∈ pass.walkStarts [] pass.elements,
      finding.1 = .decl start.2 ∧ (finding.2.code = 1203 ∨ finding.2.code = 1204)
  apart : ((pass.walkStarts [] pass.elements).flatMap pass.startFindings).Pairwise
    fun earlier later => ∀ a b,
      earlier.1 = .decl a → later.1 = .decl b → ¬ pass.project.SameHierarchy a b

theorem relaxed_pass_covers_hierarchies (plain : pass.project.PlainHierarchies)
    (search : pass.services = pass.project.services)
    (relaxed : pass.options.language.sealedInheritorsInSamePackage = true) :
    CoversHierarchies pass where
  distinct := by
    intro start started
    exact (covers_walkStarts plain search (seen_nil pass) started).1.distinct
  members := by
    intro start started
    exact (covers_walkStarts plain search (seen_nil pass) started).1.members
  whole := by
    intro start started
    exact ⟨(seen_walkStarts plain search (seen_nil pass) started).2.whole,
      (covers_walkStarts plain search (seen_nil pass) started).2.whole⟩
  covered := by
    intro element listed classLike joined
    rcases exists_walkStarts plain search (seen_nil pass) listed classLike joined with known | found
    · cases known
    · exact found
  returns := by
    simp only [hierarchyFindings, relaxed, if_true]
    refine (pass.relaxedFindings_eq_ok_iff _ _ _).mpr ⟨?_, rfl⟩
    intro start started
    exact othersFrom_ne_nil plain search (seen_nil pass) started
  findings := by
    intro finding member
    obtain ⟨start, started, found⟩ := List.mem_flatMap.mp member
    obtain ⟨key, -, conflict⟩ := pass.mem_startFindings.mp found
    exact ⟨start, started, key, pass.code_relaxedConflict? conflict⟩
  apart := by
    rw [List.pairwise_flatMap]
    refine ⟨fun start _ => pairwise_startFindings start _, ?_⟩
    refine (pairwise_walkStarts plain search pass.elements (seen_nil pass)).imp ?_
    intro earlier later different first firstFound second secondFound a b firstKey secondKey
    have firstStart := (pass.mem_startFindings.mp firstFound).1
    have secondStart := (pass.mem_startFindings.mp secondFound).1
    rw [firstKey, Element.decl.injEq] at firstStart
    rw [secondKey, Element.decl.injEq] at secondStart
    rwa [firstStart, secondStart]

/-- A circle is round, and round things and squares are shapes; round and shape are sealed. -/
def shapes : Project :=
  let p := ({} : Project).addModule "core" .jvm
  let p := p.addDirectory "core/a" (.module ⟨0⟩ false) ⟨"a"⟩
  let p := p.addDirectory "core/b" (.module ⟨0⟩ false) ⟨"b"⟩
  let p := (p.addFile ⟨0⟩ "Shapes.kt" none).addFile ⟨1⟩ "Other.kt" none
  let (shape, p) := p.classType ⟨0⟩
  let (round, p) := p.classType ⟨1⟩
  let p := p.addDecl
    { name := "Shape", kind := .interface, parent := .file ⟨0⟩, modality := .sealed }
  let p := p.addDecl
    { name := "Round", kind := .plainClass, parent := .file ⟨0⟩, modality := .sealed,
      supertypes := [shape] }
  let p := p.addDecl
    { name := "Circle", kind := .plainClass, parent := .file ⟨0⟩, supertypes := [round] }
  p.addDecl { name := "Square", kind := .plainClass, parent := .file ⟨0⟩, supertypes := [shape] }

/-- Names the circle twice, with the square in between. -/
def moveLeaves : Pass :=
  .ofDecls shapes shapes.services { language := { sealedInheritorsInSamePackage := true } }
    (.file ⟨1⟩) [⟨2⟩, ⟨3⟩, ⟨2⟩]

theorem plainHierarchies_shapes : shapes.PlainHierarchies where
  fromSource := by decide +kernel
  oneSuperclass := by decide +kernel
  sealedKind := by decide +kernel
  irreflexive := by decide +kernel
  limited := Project.length_le_of_size_le (by decide +kernel)

theorem covers_moveLeaves :
    moveLeaves.project.PlainHierarchies ∧
      moveLeaves.services = moveLeaves.project.services ∧
      moveLeaves.options.language.sealedInheritorsInSamePackage = true ∧
      moveLeaves.walkStarts [] moveLeaves.elements = [([], ⟨2⟩)] ∧
      (moveLeaves.hierarchyMembers [] ⟨2⟩).1 = [⟨2⟩, ⟨1⟩, ⟨0⟩, ⟨3⟩] ∧
      CoversHierarchies moveLeaves :=
  ⟨plainHierarchies_shapes, rfl, rfl, by cbv, by cbv,
    relaxed_pass_covers_hierarchies plainHierarchies_shapes rfl rfl⟩

end Relocation.Pass
