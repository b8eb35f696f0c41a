import Relocation.Proofs.Check.Run
import Relocation.Proofs.Sealed.Coverage
import Relocation.Proofs.Sealed.Start
set_option autoImplicit false

/-!
A pass enters a sealed hierarchy once.

Under the relaxed rule the first class of a hierarchy among the elements of a pass starts a walk,
which finds all of the hierarchy. Walks before it belong to other hierarchies, and those after it
pass over everything that it has seen. So what a pass finds about a hierarchy it finds at this one
class.
-/

namespace Relocation.Pass

variable {pass : Pass}

theorem walkStarts_cases (seen : List DeclId) (element : DeclId) (rest : List DeclId) :
    (pass.walkStarts seen (element :: rest) = pass.walkStarts seen rest ∧
      ((pass.project.decl element).kind.isClassLike = true → pass.inHierarchy element = true →
        element ∈ seen)) ∨
    (pass.walkStarts seen (element :: rest) =
        (seen, element) :: pass.walkStarts (pass.hierarchyMembers seen element).2 rest ∧
      (pass.project.decl element).kind.isClassLike = true ∧ element ∉ seen ∧
      pass.inHierarchy element = true) := by
  conv in pass.walkStarts seen (element :: rest) => unfold walkStarts
  by_cases skipped : !(pass.project.decl element).kind.isClassLike ∨ element ∈ seen ∨
      !pass.inHierarchy element
  · left
    refine ⟨if_pos skipped, ?_⟩
    intro classLike joined
    simpa [classLike, joined] using skipped
  · right
    refine ⟨if_neg skipped, ?_⟩
    simpa only [not_or, Bool.not_eq_true', Bool.not_eq_false] using skipped

theorem walkStarts_of_new {seen : List DeclId} {element : DeclId} (rest : List DeclId)
    (classLike : (pass.project.decl element).kind.isClassLike = true) (new : element ∉ seen)
    (joined : pass.inHierarchy element = true) :
    pass.walkStarts seen (element :: rest) =
      (seen, element) :: pass.walkStarts (pass.hierarchyMembers seen element).2 rest := by
  rcases walkStarts_cases seen element rest with ⟨-, known⟩ | ⟨started, -⟩
  · exact absurd (known classLike joined) new
  · exact started

theorem subset_of_mem_walkStarts {seen elements : List DeclId} {start : List DeclId × DeclId}
    (member : start ∈ pass.walkStarts seen elements) : seen ⊆ start.1 := by
  induction elements generalizing seen with
  | nil => cases member
  | cons element rest inductionHypothesis =>
    rcases walkStarts_cases seen element rest with ⟨passed, -⟩ | ⟨started, -⟩
    · rw [passed] at member
      exact inductionHypothesis member
    · rw [started] at member
      rcases List.mem_cons.mp member with rfl | later
      · exact List.Subset.refl seen
      · exact List.Subset.trans (grows_hierarchyMembers seen element).kept
          (inductionHypothesis later)

section Starts

variable (relaxed : pass.options.language.sealedInheritorsInSamePackage = true)
  {starts : List (List DeclId × DeclId)} (walks : pass.walkStarts [] pass.elements = starts)
  (company : ∀ start ∈ starts, pass.othersFrom start.1 start.2 ≠ [])
include relaxed walks company

theorem hierarchyFindings_of_starts :
    pass.hierarchyFindings = .ok (starts.flatMap pass.startFindings) := by
  subst walks
  simp only [hierarchyFindings, relaxed, if_true]
  exact (pass.relaxedFindings_eq_ok_iff _ _ _).mpr ⟨company, rfl⟩

theorem findsTorn_of_start {seen others : List DeclId} {entry : DeclId}
    (started : (seen, entry) ∈ starts) (found : pass.othersFrom seen entry = others)
    (staying : ∃ other ∈ others, pass.isMoving (.decl other) = false)
    (torn : (pass.relaxedConflict? entry others).isSome = true) :
    ∃ finding, pass.FindsTorn finding ∧ finding.1 = .decl entry := by
  subst found
  obtain ⟨conflict, found⟩ := Option.isSome_iff_exists.mp torn
  have member : (.decl entry, conflict) ∈ pass.startFindings (seen, entry) :=
    pass.mem_startFindings.mpr ⟨rfl, staying, found⟩
  exact ⟨_, ⟨_, hierarchyFindings_of_starts relaxed walks company,
    List.mem_flatMap.mpr ⟨_, started, member⟩⟩, rfl⟩

end Starts

def Unseen (pass : Pass) (root : DeclId) (seen : List DeclId) : Prop :=
  ∀ member ∈ seen, ¬ pass.project.SameHierarchy root member

section Entry

variable {root : DeclId} (search : pass.services = pass.project.services)
include search

theorem Unseen.hierarchyMembers {seen : List DeclId} (unseen : Unseen pass root seen)
    {other : DeclId} (apart : ¬ pass.project.SameHierarchy root other) :
    Unseen pass root (pass.hierarchyMembers seen other).2 := by
  intro member known inside
  rcases (grows_hierarchyMembers seen other).sound member known with early | reached
  · exact unseen member early inside
  · exact apart (inside.trans (sameHierarchy_of_reaches search reached).symm)

variable (walkable : pass.project.Walkable root) (joined : pass.project.Joined root)
include walkable joined

/-- The first class of a hierarchy starts a walk through all of it, and no other class of the
hierarchy starts one. -/
theorem walkStarts_of_enters {seen elements : List DeclId} {entry : DeclId}
    (distinct : seen.Nodup) (unseen : Unseen pass root seen)
    (entered : pass.project.Enters elements root entry) :
    ∃ earlier before later, pass.walkStarts seen elements = earlier ++ (before, entry) :: later ∧
      Finds pass before entry ∧
      ∀ start ∈ earlier ++ later, ¬ pass.project.SameHierarchy root start.2 := by
  obtain ⟨passed, rest, rfl, classLike, inside, apart⟩ := entered
  induction passed generalizing seen with
  | nil =>
    have new : entry ∉ seen := fun known => unseen entry known inside
    have entryWalkable := walkable.of_same inside
    have entryJoined := inside.joined joined
    have finds := finds_hierarchyMembers entryWalkable search distinct
      (fun member known same => absurd (inside.trans same) (unseen member known)) new entryJoined
    rcases walkStarts_cases seen entry rest with ⟨-, known⟩ | ⟨started, -⟩
    · have asked := entryWalkable.upwards entry (.refl entry)
      have listed := (inHierarchy_iff asked search).mpr entryJoined
      exact absurd (known classLike listed) new
    · refine ⟨[], seen, _, started, finds, ?_⟩
      intro start member same
      have known := (finds.after start.2).mpr (Or.inr (inside.symm.trans same))
      exact (pass.mem_walkStarts member).2.2.1 (subset_of_mem_walkStarts member known)
  | cons first passed inductionHypothesis =>
    obtain ⟨firstApart, restApart⟩ := List.forall_mem_cons.mp apart
    rcases walkStarts_cases seen first (passed ++ entry :: rest) with
      ⟨skipped, -⟩ | ⟨started, firstShape, -, -⟩
    · rw [List.cons_append, skipped]
      exact inductionHypothesis distinct unseen restApart
    · have elsewhere := firstApart firstShape
      obtain ⟨earlier, before, later, split, finds, others⟩ := inductionHypothesis
        ((grows_hierarchyMembers seen first).distinct distinct)
        (unseen.hierarchyMembers search elsewhere) restApart
      refine ⟨(seen, first) :: earlier, before, later, ?_, finds, ?_⟩
      · rw [List.cons_append, started, split, List.cons_append]
      · rw [List.cons_append, List.forall_mem_cons]
        exact ⟨elsewhere, others⟩

end Entry

/-- A walk that a pass starts finds the source classes of the hierarchy that it starts in, if it can
go through all of it. -/
theorem finds_of_mem_walkStarts (search : pass.services = pass.project.services)
    {start : List DeclId × DeclId} (walkable : pass.project.Walkable start.2)
    (started : start ∈ pass.walkStarts [] pass.elements) : Finds pass start.1 start.2 := by
  obtain ⟨listed, classLike, -, inHierarchy⟩ := pass.mem_walkStarts started
  obtain ⟨entry, entered⟩ := Project.exists_enters listed classLike (.refl start.2)
  obtain ⟨earlier, before, later, split, finds, others⟩ := walkStarts_of_enters search walkable
    (joined_of_inHierarchy search inHierarchy) List.nodup_nil
    (fun member known => absurd known List.not_mem_nil) entered
  -- The walk is the one from the class at which its own hierarchy is entered.
  have isEntry : start = (before, entry) := by
    rw [split, List.mem_append, List.mem_cons] at started
    rcases started with early | same | late
    · exact absurd (.refl start.2) (others start (List.mem_append_left _ early))
    · exact same
    · exact absurd (.refl start.2) (others start (List.mem_append_right _ late))
  subst isEntry
  exact finds

theorem Finds.mem_othersFrom_iff {seen : List DeclId} {id other : DeclId}
    (finds : Finds pass seen id) :
    other ∈ pass.othersFrom seen id ↔ pass.project.Companion id other := by
  rw [othersFrom, List.mem_filter, finds.members, bne_iff_ne]
  constructor
  · rintro ⟨⟨same, source⟩, ne⟩
    exact ⟨same, source, ne⟩
  · rintro ⟨same, source, ne⟩
    exact ⟨⟨same, source⟩, ne⟩

/-- A pass returns if no class of a hierarchy is the only source class in it. -/
theorem returns_of_companions (search : pass.services = pass.project.services)
    (relaxed : pass.options.language.sealedInheritorsInSamePackage = true)
    (walkable : ∀ id, pass.project.Walkable id)
    (company : ∀ id, pass.project.Joined id → ∃ other, pass.project.Companion id other) :
    ∃ findings, pass.hierarchyFindings = .ok findings := by
  simp only [hierarchyFindings, relaxed, if_true]
  refine ⟨_, (pass.relaxedFindings_eq_ok_iff _ _ _).mpr ⟨?_, rfl⟩⟩
  intro start started
  obtain ⟨-, -, -, inHierarchy⟩ := pass.mem_walkStarts started
  obtain ⟨other, companion⟩ := company start.2 (joined_of_inHierarchy search inHierarchy)
  have finds := finds_of_mem_walkStarts search (walkable start.2) started
  exact List.ne_nil_of_mem (finds.mem_othersFrom_iff.mpr companion)

section Findings

variable {root : DeclId} (search : pass.services = pass.project.services)
  (walkable : pass.project.Walkable root)
  (relaxed : pass.options.language.sealedInheritorsInSamePackage = true)
  {findings : List Finding} (returned : pass.hierarchyFindings = .ok findings)
include relaxed returned

theorem mem_findings_iff {finding : Finding} :
    finding ∈ findings ↔
      ∃ start ∈ pass.walkStarts [] pass.elements, finding ∈ pass.startFindings start := by
  simp only [hierarchyFindings, relaxed, if_true] at returned
  obtain ⟨-, rfl⟩ := (pass.relaxedFindings_eq_ok_iff _ _ _).mp returned
  exact List.mem_flatMap

theorem code_of_mem_findings {finding : Finding} (member : finding ∈ findings) :
    finding.2.code = 1203 ∨ finding.2.code = 1204 := by
  obtain ⟨start, -, started⟩ := (mem_findings_iff relaxed returned).mp member
  exact pass.code_relaxedConflict? (pass.mem_startFindings.mp started).2.2

theorem mem_torn_iff_of_first_check {usages : List Usage} {after : CheckState}
    (checked : pass.check (.ofUsages usages {}) = .ok after) {finding : Finding} :
    finding ∈ after.report.torn ↔ finding ∈ findings := by
  have found (code : finding.2.code = 1203 ∨ finding.2.code = 1204) :
      finding ∈ after.report.findings ↔ finding ∈ findings := by
    rw [pass.mem_findings_of_first_check checked (by omega)]
    simp [FindsTorn, returned]
  rw [Report.mem_torn]
  constructor
  · rintro ⟨listed, code⟩
    exact (found code).mp listed
  · intro member
    have code := code_of_mem_findings relaxed returned member
    exact ⟨(found code).mpr member, code⟩

include search walkable

theorem findings_about {finding : Finding} (member : finding ∈ findings)
    (about : pass.project.IsAbout root finding) :
    ∃ before entry, pass.project.Enters pass.elements root entry ∧ Finds pass before entry ∧
      ∀ other ∈ findings, pass.project.IsAbout root other →
        other ∈ pass.startFindings (before, entry) := by
  have keyed {start : List DeclId × DeclId} {other : Finding}
      (found : other ∈ pass.startFindings start) (about : pass.project.IsAbout root other) :
      pass.project.SameHierarchy root start.2 := by
    obtain ⟨key, shape, inside⟩ := about
    have keyed := (pass.mem_startFindings.mp found).1
    rw [shape, Element.decl.injEq] at keyed
    exact keyed ▸ inside
  obtain ⟨start, started, found⟩ := (mem_findings_iff relaxed returned).mp member
  have inside := keyed found about
  obtain ⟨listed, classLike, -, joined⟩ := pass.mem_walkStarts started
  obtain ⟨entry, entered⟩ := Project.exists_enters listed classLike inside
  have rootJoined := inside.symm.joined (joined_of_inHierarchy search joined)
  obtain ⟨earlier, before, later, split, finds, others⟩ := walkStarts_of_enters search walkable
    rootJoined List.nodup_nil (fun member known => absurd known List.not_mem_nil) entered
  refine ⟨before, entry, entered, finds, ?_⟩
  intro other otherMember otherAbout
  obtain ⟨start, started, found⟩ := (mem_findings_iff relaxed returned).mp otherMember
  rw [split, List.mem_append, List.mem_cons] at started
  rcases started with early | rfl | late
  · exact absurd (keyed found otherAbout) (others start (List.mem_append_left _ early))
  · exact found
  · exact absurd (keyed found otherAbout) (others start (List.mem_append_right _ late))

/-- A pass has no two findings about one hierarchy. -/
theorem findings_about_unique {one other : Finding} (oneMember : one ∈ findings)
    (otherMember : other ∈ findings) (oneAbout : pass.project.IsAbout root one)
    (otherAbout : pass.project.IsAbout root other) : one = other := by
  obtain ⟨before, entry, -, -, all⟩ :=
    findings_about search walkable relaxed returned oneMember oneAbout
  obtain ⟨oneKey, -, oneConflict⟩ := pass.mem_startFindings.mp (all one oneMember oneAbout)
  obtain ⟨otherKey, -, otherConflict⟩ :=
    pass.mem_startFindings.mp (all other otherMember otherAbout)
  rw [oneConflict, Option.some.injEq] at otherConflict
  exact Prod.ext (oneKey.trans otherKey.symm) otherConflict

end Findings

end Relocation.Pass
