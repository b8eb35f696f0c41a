import Mathlib.Data.List.Basic
import Relocation.Check.SealedHierarchy
set_option autoImplicit false

/-!
The walks of a pass under the relaxed rule. A pass goes through its elements in order and starts a
walk at each that is a class of a hierarchy and was not seen by an earlier walk. Its findings are
those of the single walks, one after the other, and it fails where the first of them fails.
-/

namespace Relocation.Pass

variable (pass : Pass)

/-- The classes at which a pass starts a walk, each with the classes seen before it. -/
def walkStarts (seen : List DeclId) : List DeclId → List (List DeclId × DeclId)
  | [] => []
  | element :: rest =>
    if !(pass.project.decl element).kind.isClassLike ∨ element ∈ seen ∨
        !pass.inHierarchy element then
      walkStarts seen rest
    else (seen, element) :: walkStarts (pass.hierarchyMembers seen element).2 rest

/-- The other members of its hierarchy that a walk finds from a class. -/
def othersFrom (seen : List DeclId) (element : DeclId) : List DeclId :=
  (pass.hierarchyMembers seen element).1.filter (· != element)

/-- What the walk from one class finds; at most one conflict of that class. -/
def startFindings (start : List DeclId × DeclId) : List Finding :=
  if (pass.othersFrom start.1 start.2).all fun other => pass.isMoving (.decl other) then []
  else ((pass.relaxedConflict? start.2 (pass.othersFrom start.1 start.2)).map fun conflict =>
    (.decl start.2, conflict)).toList

theorem mem_walkStarts {seen elements : List DeclId} {start : List DeclId × DeclId}
    (member : start ∈ pass.walkStarts seen elements) :
    start.2 ∈ elements ∧ (pass.project.decl start.2).kind.isClassLike = true ∧
      start.2 ∉ start.1 ∧ pass.inHierarchy start.2 = true := by
  induction elements generalizing seen with
  | nil => simp [walkStarts] at member
  | cons element rest inductionHypothesis =>
    unfold walkStarts at member
    split at member
    · obtain ⟨later, shape⟩ := inductionHypothesis member
      exact ⟨List.mem_cons_of_mem _ later, shape⟩
    next starting =>
      rcases List.mem_cons.mp member with rfl | member
      · simp only [not_or, Bool.not_eq_true', Bool.not_eq_false] at starting
        exact ⟨List.mem_cons_self .., starting⟩
      · obtain ⟨later, shape⟩ := inductionHypothesis member
        exact ⟨List.mem_cons_of_mem _ later, shape⟩

theorem walkStarts_of_seen {seen elements : List DeclId} (known : elements ⊆ seen) :
    pass.walkStarts seen elements = [] := by
  induction elements with
  | nil => rfl
  | cons element rest inductionHypothesis =>
    obtain ⟨here, later⟩ := List.cons_subset.mp known
    simp [walkStarts, here, inductionHypothesis later]

theorem mem_startFindings {start : List DeclId × DeclId} {finding : Finding} :
    finding ∈ pass.startFindings start ↔
      finding.1 = .decl start.2 ∧
        (∃ other ∈ pass.othersFrom start.1 start.2, pass.isMoving (.decl other) = false) ∧
        pass.relaxedConflict? start.2 (pass.othersFrom start.1 start.2) = some finding.2 := by
  rcases finding with ⟨element, conflict⟩
  unfold startFindings
  split
  next moving =>
    have everyone : ∀ other ∈ pass.othersFrom start.1 start.2,
        pass.isMoving (.decl other) = true := by simpa using moving
    simp only [List.not_mem_nil, false_iff, not_and]
    rintro - ⟨other, member, staying⟩
    simp [everyone other member] at staying
  next staying =>
    have someone : ∃ other ∈ pass.othersFrom start.1 start.2,
        pass.isMoving (.decl other) = false := by simpa using staying
    simp only [Option.mem_toList, Option.map_eq_some_iff, Prod.mk.injEq, someone, true_and]
    constructor
    · rintro ⟨found, result, rfl, rfl⟩
      exact ⟨rfl, result⟩
    · rintro ⟨rfl, result⟩
      exact ⟨conflict, result, rfl, rfl⟩

theorem isSome_relaxedConflict? {pass : Pass} {id : DeclId} {others : List DeclId} :
    (pass.relaxedConflict? id others).isSome = true ↔
      ∃ target, pass.targetResidence? = some target ∧
        ((∀ other ∈ others, pass.residence? other ≠ some target) ∨
          ∃ source, pass.residence? id = some source ∧
            ¬ (target.package = source.package ∧ target.module = source.module) ∧
            ∃ other ∈ others, pass.residence? other = some source ∧
              pass.isMoving (.decl other) = false) := by
  unfold relaxedConflict?
  cases pass.targetResidence? with
  | none => simp
  | some target =>
    simp only [Option.bind_eq_bind, Option.bind_some, Option.some.injEq, exists_eq_left']
    split
    next away => exact iff_of_true rfl (Or.inl (by simpa using away))
    next here =>
      have someone : ¬ ∀ other ∈ others, pass.residence? other ≠ some target := by
        simpa using here
      simp only [someone, false_or]
      cases pass.residence? id with
      | none => simp
      | some source =>
        simp only [Option.bind_some, Option.some.injEq, exists_eq_left']
        have left : others.filter (fun other =>
            pass.residence? other == some source && !pass.isMoving (.decl other)) = [] ↔
              ¬ ∃ other ∈ others, pass.residence? other = some source ∧
                pass.isMoving (.decl other) = false := by
          simp
        simp only [List.isEmpty_iff, left]
        split
        next stops =>
          refine iff_of_false (by simp) ?_
          rintro ⟨away, found⟩
          exact stops.elim away fun nothing => nothing found
        next goes =>
          simp only [not_or, not_not] at goes
          exact iff_of_true rfl goes

theorem relaxedFindings_cons (seen rest : List DeclId) (element : DeclId) :
    pass.relaxedFindings seen (element :: rest) =
      if !(pass.project.decl element).kind.isClassLike ∨ element ∈ seen ∨
          !pass.inHierarchy element then
        pass.relaxedFindings seen rest
      else if pass.othersFrom seen element = [] then .error ⟨(pass.project.decl element).name⟩
      else (pass.relaxedFindings (pass.hierarchyMembers seen element).2 rest).map
        (pass.startFindings (seen, element) ++ ·) := by
  unfold othersFrom startFindings othersFrom
  conv_lhs => unfold relaxedFindings
  split
  · rfl
  · obtain ⟨members, next⟩ := pass.hierarchyMembers seen element
    simp only [List.isEmpty_iff]
    split
    · rfl
    · cases pass.relaxedFindings next rest with
      | error fault => rfl
      | ok later => split <;> rfl

/-- A pass returns if every walk meets another class; its findings are then those of its walks. -/
theorem relaxedFindings_eq_ok_iff (seen elements : List DeclId) (findings : List Finding) :
    pass.relaxedFindings seen elements = .ok findings ↔
      (∀ start ∈ pass.walkStarts seen elements, pass.othersFrom start.1 start.2 ≠ []) ∧
        findings = (pass.walkStarts seen elements).flatMap pass.startFindings := by
  induction elements generalizing seen findings with
  | nil =>
    constructor
    · intro returned
      cases returned
      exact ⟨by simp [walkStarts], rfl⟩
    · rintro ⟨-, rfl⟩
      rfl
  | cons element rest inductionHypothesis =>
    rw [relaxedFindings_cons, walkStarts]
    split
    · exact inductionHypothesis seen findings
    · simp only [List.forall_mem_cons, List.flatMap_cons]
      split
      next lone => simp [lone]
      next company =>
        cases later : pass.relaxedFindings (pass.hierarchyMembers seen element).2 rest with
        | error fault =>
          constructor
          · intro returned
            cases returned
          · rintro ⟨⟨-, others⟩, -⟩
            rw [(inductionHypothesis _ _).mpr ⟨others, rfl⟩] at later
            cases later
        | ok found =>
          obtain ⟨others, rfl⟩ := (inductionHypothesis _ _).mp later
          constructor
          · intro returned
            cases returned
            exact ⟨⟨company, others⟩, rfl⟩
          · rintro ⟨-, rfl⟩
            rfl

theorem mem_relaxedFindings {seen elements : List DeclId} {findings : List Finding}
    (returned : pass.relaxedFindings seen elements = .ok findings) {finding : Finding}
    (member : finding ∈ findings) :
    ∃ start ∈ pass.walkStarts seen elements, finding ∈ pass.startFindings start := by
  obtain ⟨-, rfl⟩ := (pass.relaxedFindings_eq_ok_iff _ _ _).mp returned
  exact List.mem_flatMap.mp member

end Relocation.Pass
