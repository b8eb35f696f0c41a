import Relocation.Proofs.Check.Run
import Relocation.Proofs.Project.Listed
import Relocation.Proofs.Sealed.Carried
import Relocation.Proofs.Sealed.Coverage
import Relocation.Proofs.Sealed.Strict
set_option autoImplicit false

/-!
What moves, stated in other elements.

A detector asks whether a declaration or a reference moves, and by which elements that is said does
not matter to it. Only where moved code will lie is asked of the elements themselves, so the two
detectors that follow containers after the move are left out here.
-/

namespace Relocation.Pass

def withMoving (pass : Pass) (moving : List Element) : Pass := { pass with moving }

/-- Other elements move the same declarations and references. -/
structure MovesSame (pass : Pass) (moving : List Element) : Prop where
  decls : ∀ id ∈ pass.project.declIds,
    (pass.withMoving moving).isMoving (.decl id) = pass.isMoving (.decl id)
  references : ∀ id ∈ pass.project.refIds,
    (pass.withMoving moving).isMoving (.reference id) = pass.isMoving (.reference id)

variable {pass : Pass} {moving : List Element}

/-- A walk through hierarchies does not ask what moves. -/
theorem hierarchyMembers_withMoving (seen : List DeclId) (id : DeclId) :
    (pass.withMoving moving).hierarchyMembers seen id = pass.hierarchyMembers seen id := by
  have visit (depth : Nat) :
      (pass.withMoving moving).visitHierarchy depth = pass.visitHierarchy depth := by
    induction depth with
    | zero => rfl
    | succ depth inductionHypothesis =>
      funext walk other
      simp only [visitHierarchy, inductionHypothesis]
      rfl
  have depth : (pass.withMoving moving).project.declDepth = pass.project.declDepth := rfl
  simp only [hierarchyMembers, depth, visit]
  rfl

theorem othersFrom_withMoving (seen : List DeclId) (id : DeclId) :
    (pass.withMoving moving).othersFrom seen id = pass.othersFrom seen id := by
  rw [othersFrom, othersFrom, hierarchyMembers_withMoving]

variable (same : pass.MovesSame moving)
include same

theorem usagesBeyondModule_withMoving {external : List Usage}
    (known : ∀ usage ∈ external, usage.reference ∈ pass.project.refIds) :
    (pass.withMoving moving).usagesBeyondModule external = pass.usagesBeyondModule external := by
  have each (location : TargetLocation) (module : ModuleId) :
      external.filterMap ((pass.withMoving moving).usageBeyondModule? location module) =
        external.filterMap (pass.usageBeyondModule? location module) := by
    refine List.filterMap_congr fun usage listed => ?_
    simp only [usageBeyondModule?, same.references usage.reference (known usage listed)]
    rfl
  simp only [usagesBeyondModule, each]
  rfl

theorem referencesOutOfScope_withMoving (listed : pass.project.Listed) :
    (pass.withMoving moving).referencesOutOfScope = pass.referencesOutOfScope := by
  have each (module : ModuleId) (scope : ModuleScope) (id : RefId) :
      (pass.withMoving moving).referenceOutOfScope? module scope id =
        pass.referenceOutOfScope? module scope id := by
    cases resolved : (pass.project.reference id).target with
    | none =>
      have stated : ((pass.withMoving moving).project.reference id).target = none := resolved
      simp only [referenceOutOfScope?, resolved, stated]
      rfl
    | some target =>
      have stated : ((pass.withMoving moving).project.reference id).target = some target := resolved
      simp only [referenceOutOfScope?, resolved, stated,
        same.decls target (listed.target id target resolved), Option.bind_eq_bind,
        Option.bind_some]
      rfl
  have all (module : ModuleId) (scope : ModuleScope) :
      (pass.withMoving moving).referenceOutOfScope? module scope =
        pass.referenceOutOfScope? module scope := funext (each module scope)
  simp only [referencesOutOfScope, all]
  rfl

theorem lostUsages_withMoving {external : List Usage}
    (known : ∀ usage ∈ external, usage.reference ∈ pass.project.refIds) :
    (pass.withMoving moving).lostUsages external = pass.lostUsages external := by
  have exposed : (pass.withMoving moving).exposedUsages external =
      pass.exposedUsages external := by
    unfold exposedUsages
    congr 1
    refine List.filterMap_congr fun usage listed => ?_
    simp only [exposedOwner?, same.references usage.reference (known usage listed)]
    rfl
  simp only [lostUsages, exposed]
  rfl

theorem foreignReferences_withMoving (search : pass.services = pass.project.services) :
    (pass.withMoving moving).foreignReferences = pass.foreignReferences := by
  have each (module : ModuleId) (member : DeclId) :
      (pass.services.referencesTo member).filterMap
          ((pass.withMoving moving).foreignReference? module member) =
        (pass.services.referencesTo member).filterMap (pass.foreignReference? module member) := by
    refine List.filterMap_congr fun id referring => ?_
    have known : id ∈ pass.project.refIds :=
      (pass.project.mem_referencesTo (search ▸ referring)).1
    simp only [foreignReference?, same.references id known]
    rfl
  unfold foreignReferences
  cases targeted : pass.targetModule? with
  | none =>
    have stated : (pass.withMoving moving).targetModule? = none := targeted
    simp only [stated]
  | some module =>
    have stated : (pass.withMoving moving).targetModule? = some module := targeted
    simp only [stated]
    exact List.flatMap_congr fun member _ => each module member

theorem lostReference?_withMoving (listed : pass.project.Listed) {into : Container}
    {moved : DeclId} {id : RefId}
    (stays : ∀ referenced, (pass.project.reference id).target = some referenced →
      (pass.withMoving moving).staysAccessible into referenced id =
        pass.staysAccessible into referenced id) :
    (pass.withMoving moving).lostReference? into moved id = pass.lostReference? into moved id := by
  refine Option.ext fun finding => ?_
  rw [lostReference?_eq_some_iff, lostReference?_eq_some_iff]
  refine exists_congr fun referenced => and_congr_right fun resolved => ?_
  rw [same.decls referenced (listed.target id referenced resolved), stays referenced resolved]
  rfl

theorem strictFindings_withMoving (search : pass.services = pass.project.services)
    (seen elements : List DeclId) :
    (pass.withMoving moving).strictFindings seen elements = pass.strictFindings seen elements := by
  have family {element root : DeclId} (rooted : pass.strictRoot? element = some root) :
      (root :: pass.sealedSubclasses root).all
          (fun id => (pass.withMoving moving).isMoving (.decl id)) =
        (root :: pass.sealedSubclasses root).all fun id => pass.isMoving (.decl id) := by
    rw [Bool.eq_iff_iff, List.all_eq_true, List.all_eq_true]
    refine forall₂_congr fun id judged => ?_
    have declared : id ∈ pass.project.declIds := by
      rcases List.mem_cons.mp judged with rfl | below
      · exact Project.mem_declIds_of_isSealed (sealed_of_strictRoot? rooted)
      · obtain ⟨descends, other⟩ := (mem_sealedSubclasses search).mp below
        exact descends.sameHierarchy.inside.resolve_left other
    rw [same.decls id declared]
  induction elements generalizing seen with
  | nil => rfl
  | cons element rest inductionHypothesis =>
    unfold strictFindings
    by_cases known : element ∈ seen
    · simp only [known, if_true, inductionHypothesis]
    · cases rooted : pass.strictRoot? element with
      | none =>
        have stated : (pass.withMoving moving).strictRoot? element = none := rooted
        simp only [stated, inductionHypothesis]
      | some root =>
        have stated : (pass.withMoving moving).strictRoot? element = some root := rooted
        have subclasses : (pass.withMoving moving).sealedSubclasses root =
            pass.sealedSubclasses root := rfl
        simp only [stated, subclasses, family rooted, inductionHypothesis]
        rfl

theorem startFindings_withMoving (search : pass.services = pass.project.services)
    (start : List DeclId × DeclId) :
    (pass.withMoving moving).startFindings start = pass.startFindings start := by
  have moves (other : DeclId) (found : other ∈ pass.othersFrom start.1 start.2) :
      (pass.withMoving moving).isMoving (.decl other) = pass.isMoving (.decl other) := by
    obtain ⟨member, different⟩ := List.mem_filter.mp found
    have reached := sameHierarchy_of_reaches search (reaches_of_mem_hierarchyMembers member)
    exact same.decls other (reached.inside.resolve_left (by simpa using different))
  have whole : (pass.othersFrom start.1 start.2).all
        (fun other => (pass.withMoving moving).isMoving (.decl other)) =
      (pass.othersFrom start.1 start.2).all fun other => pass.isMoving (.decl other) := by
    rw [Bool.eq_iff_iff, List.all_eq_true, List.all_eq_true]
    exact forall₂_congr fun other found => by rw [moves other found]
  have staying (source : Residence) :
      (pass.othersFrom start.1 start.2).filter (fun other =>
          (pass.withMoving moving).residence? other == some source &&
            !(pass.withMoving moving).isMoving (.decl other)) =
        (pass.othersFrom start.1 start.2).filter fun other =>
          pass.residence? other == some source && !pass.isMoving (.decl other) := by
    refine List.filter_congr fun other found => ?_
    rw [moves other found]
    rfl
  have conflict : (pass.withMoving moving).relaxedConflict? start.2
        (pass.othersFrom start.1 start.2) =
      pass.relaxedConflict? start.2 (pass.othersFrom start.1 start.2) := by
    simp only [relaxedConflict?, staying]
    rfl
  simp only [startFindings, othersFrom_withMoving, whole, conflict]

theorem relaxedFindings_withMoving (search : pass.services = pass.project.services)
    (seen elements : List DeclId) :
    (pass.withMoving moving).relaxedFindings seen elements =
      pass.relaxedFindings seen elements := by
  induction elements generalizing seen with
  | nil => rfl
  | cons element rest inductionHypothesis =>
    rw [relaxedFindings_cons, relaxedFindings_cons, startFindings_withMoving same search,
      othersFrom_withMoving, hierarchyMembers_withMoving, inductionHypothesis, inductionHypothesis]
    rfl

theorem hierarchyFindings_withMoving (search : pass.services = pass.project.services) :
    (pass.withMoving moving).hierarchyFindings = pass.hierarchyFindings := by
  simp only [hierarchyFindings, relaxedFindings_withMoving same search,
    strictFindings_withMoving same search]
  rfl

theorem externalLeft_withMoving {external : List Usage}
    (known : ∀ usage ∈ external, usage.reference ∈ pass.project.refIds) :
    (pass.withMoving moving).externalLeft external = pass.externalLeft external := by
  rw [externalLeft, externalLeft, usagesBeyondModule_withMoving same known]

theorem internalLeft_withMoving (listed : pass.project.Listed) (internal : List Usage) :
    (pass.withMoving moving).internalLeft internal = pass.internalLeft internal := by
  rw [internalLeft, internalLeft, referencesOutOfScope_withMoving same listed]

theorem usages_withMoving (listed : pass.project.Listed) {before one other : CheckState}
    (known : ∀ usage ∈ before.external, usage.reference ∈ pass.project.refIds)
    (oneReturned : pass.check before = .ok one)
    (otherReturned : (pass.withMoving moving).check before = .ok other) :
    other.usages = one.usages := by
  obtain ⟨-, -, rfl⟩ := (check_eq_ok_iff _ _ _).mp oneReturned
  obtain ⟨-, -, rfl⟩ := (check_eq_ok_iff _ _ _).mp otherReturned
  simp only [CheckState.usages, externalLeft_withMoving same known,
    internalLeft_withMoving same listed]

section Run

variable (listed : pass.project.Listed) (search : pass.services = pass.project.services)
  {before : CheckState} (known : ∀ usage ∈ before.external, usage.reference ∈ pass.project.refIds)
  (names : (pass.withMoving moving).nameClashes = pass.nameClashes)
include listed search known names

theorem check_withMoving
    (references : (pass.withMoving moving).lostReferences = pass.lostReferences) :
    (pass.withMoving moving).check before = pass.check before := by
  have left : ∀ usage ∈ withoutReported (pass.usagesBeyondModule before.external) before.external,
      usage.reference ∈ pass.project.refIds :=
    fun usage kept => known usage (List.mem_filter.mp kept).1
  simp only [check, usagesBeyondModule_withMoving same known,
    referencesOutOfScope_withMoving same listed, lostUsages_withMoving same left,
    foreignReferences_withMoving same search, hierarchyFindings_withMoving same search,
    references, names]

/-- Runs find the same but for references that one of them says to lose sight. -/
theorem mem_findings_withMoving {one other : CheckState} (oneReturned : pass.check before = .ok one)
    (otherReturned : (pass.withMoving moving).check before = .ok other) {finding : Finding}
    (references : finding ∈ (pass.withMoving moving).lostReferences ↔
      finding ∈ pass.lostReferences) :
    finding ∈ other.report.findings ↔ finding ∈ one.report.findings := by
  have external := externalLeft_withMoving same known
  have left : ∀ usage ∈ pass.externalLeft before.external,
      usage.reference ∈ pass.project.refIds :=
    fun usage kept => known usage (pass.mem_externalLeft.mp kept).1
  obtain ⟨oneLater, oneFound, rfl⟩ := (check_eq_ok_iff _ _ _).mp oneReturned
  obtain ⟨otherLater, otherFound, rfl⟩ := (check_eq_ok_iff _ _ _).mp otherReturned
  simp only [Report.mem_findings_pushAll, List.mem_append, mem_laterFindings _ oneFound,
    mem_laterFindings _ otherFound, external, usagesBeyondModule_withMoving same known,
    referencesOutOfScope_withMoving same listed, lostUsages_withMoving same left,
    foreignReferences_withMoving same search, hierarchyFindings_withMoving same search,
    references, names]

end Run

end Relocation.Pass
