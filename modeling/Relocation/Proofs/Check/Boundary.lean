import Relocation.Proofs.Check.Request
set_option autoImplicit false

/-!
Conflicts stand at the boundary of a move. Either a reference crosses the boundary, and the conflict
is held against the reference or against the declaration that it resolves to; or a declaration that
moves is at odds with what it leaves or finds.

The detectors decide in different ways what moves: by the list of a pass, by a walk outwards from a
reference or down from a class, or by what the usages say of themselves. Each of these is shown to
agree with containment in what moves.
-/

namespace Relocation

namespace Project

variable (p : Project)

/-- A reference that moves away from its target, or is left behind by it. -/
structure Crosses (moving : List Element) (reference : RefId) (target : DeclId) : Prop where
  resolved : (p.reference reference).target = some target
  apart : p.isInside moving (.reference reference) ≠ p.isInside moving (.decl target)

/-- The elements that a conflict may concern because a reference crosses the boundary, with the
numbers of the messages. -/
inductive AtCrossing (moving : List Element) : Element → Nat → Prop where
  | stranded {reference : RefId} {id : DeclId} {code : Nat} (crosses : p.Crosses moving reference id)
      (moves : p.isInside moving (.decl id) = true) (message : code = 1001 ∨ code = 1002) :
      AtCrossing moving (.decl id) code
  | outOfScope {reference : RefId} {id : DeclId} (crosses : p.Crosses moving reference id)
      (stays : p.isInside moving (.decl id) = false) : AtCrossing moving (.decl id) 1003
  | lostSight {reference : RefId} {target : DeclId} (crosses : p.Crosses moving reference target) :
      AtCrossing moving (.reference reference) 1101
  | foreign {reference : RefId} {target : DeclId} (crosses : p.Crosses moving reference target)
      (stays : p.isInside moving (.reference reference) = false) :
      AtCrossing moving (.reference reference) 1102

/-- The elements that any conflict may concern when `moving` moves. -/
inductive AtBoundary (moving : List Element) : Element → Nat → Prop where
  | crossing {element : Element} {code : Nat} (crossing : p.AtCrossing moving element code) :
      AtBoundary moving element code
  | torn {id : DeclId} {code : Nat} (moves : p.isInside moving (.decl id) = true)
      (message : 1201 ≤ code ∧ code ≤ 1204) : AtBoundary moving (.decl id) code
  | clash {id : DeclId} (moves : p.isInside moving (.decl id) = true) :
      AtBoundary moving (.decl id) 1301

variable {p}

theorem Crosses.of_leaving {moving : List Element} {reference : RefId} {target : DeclId}
    (resolved : (p.reference reference).target = some target)
    (moves : p.isInside moving (.reference reference) = true)
    (stays : p.isInside moving (.decl target) = false) : p.Crosses moving reference target where
  resolved := resolved
  apart := by simp [moves, stays]

theorem Crosses.of_left {moving : List Element} {reference : RefId} {target : DeclId}
    (resolved : (p.reference reference).target = some target)
    (stays : p.isInside moving (.reference reference) = false)
    (moves : p.isInside moving (.decl target) = true) : p.Crosses moving reference target where
  resolved := resolved
  apart := by simp [moves, stays]

theorem AtCrossing.exists_crosses {moving : List Element} {element : Element} {code : Nat}
    (crossing : p.AtCrossing moving element code) :
    ∃ reference target, p.Crosses moving reference target := by
  cases crossing with
  | stranded crosses | outOfScope crosses | lostSight crosses | foreign crosses =>
    exact ⟨_, _, crosses⟩

theorem ListsChildren.liesIn_of_mem_internalMembersWithin (lists : p.ListsChildren) {depth : Nat}
    {root id : DeclId} (found : id ∈ p.internalMembersWithin depth root) :
    p.LiesIn (.decl id) (.decl root) := by
  induction depth generalizing root with
  | zero => cases found
  | succ depth inductionHypothesis =>
    rcases List.mem_append.mp found with here | below
    · exact lists.liesIn_of_mem_members (List.mem_filter.mp here).1
    · obtain ⟨member, listed, found⟩ := List.mem_flatMap.mp below
      exact (inductionHypothesis found).trans
        (lists.liesIn_of_mem_members (List.mem_filter.mp listed).1)

end Project

namespace Pass

section Moving

variable {pass : Pass} (ofMove : pass.OfMove) (regular : pass.project.Regular)
include ofMove

theorem OfMove.walked {id : DeclId} (walked : id ∈ pass.walked) :
    pass.isMoving (.decl id) = true :=
  ofMove.moving id (List.mem_filter.mp walked).1

include regular

theorem OfMove.referencesWithin {moved : DeclId} {id : RefId} (walked : moved ∈ pass.walked)
    (within : id ∈ pass.project.referencesWithin moved) : pass.isMoving (.reference id) = true :=
  regular.isInside_of_liesIn (Project.liesIn_of_liesWithin (List.mem_filter.mp within).2)
    (ofMove.walked walked)

theorem OfMove.movedInternalMembers {member : DeclId}
    (found : member ∈ pass.movedInternalMembers) : pass.isMoving (.decl member) = true := by
  rw [Pass.movedInternalMembers, List.mem_eraseDups, List.mem_flatMap] at found
  obtain ⟨root, listed, found⟩ := found
  apply regular.isInside_of_liesIn (regular.lists.liesIn_of_mem_internalMembersWithin found)
  exact ofMove.moving root (List.mem_filter.mp listed).1

theorem OfMove.referencesOutOfScope {reported : RefId × Finding}
    (found : reported ∈ pass.referencesOutOfScope) :
    pass.project.AtCrossing pass.moving reported.2.1 reported.2.2.code := by
  obtain ⟨_, -, moved, walked, -, id, within, found⟩ := pass.mem_referencesOutOfScope.mp found
  obtain ⟨target, _, resolved, -, -, stays, -, rfl⟩ :=
    pass.referenceOutOfScope?_eq_some_iff.mp found
  have moves := ofMove.referencesWithin regular walked within
  exact .outOfScope (.of_leaving resolved moves stays) stays

theorem OfMove.lostReferences {finding : Finding} (found : finding ∈ pass.lostReferences) :
    pass.project.AtCrossing pass.moving finding.1 finding.2.code := by
  obtain ⟨_, -, moved, walked, id, within, lost⟩ := pass.mem_lostReferences_iff.mp found
  obtain ⟨target, resolved, stays, -, -, rfl⟩ := pass.lostReference?_eq_some_iff.mp lost
  have moves := ofMove.referencesWithin regular walked within
  exact .lostSight (.of_leaving resolved moves stays)

theorem OfMove.foreignReferences {finding : Finding}
    (found : finding ∈ pass.foreignReferences) :
    pass.project.AtCrossing pass.moving finding.1 finding.2.code := by
  obtain ⟨_, -, member, inside, id, referring, foreign⟩ := pass.mem_foreignReferences_iff.mp found
  obtain ⟨_, -, -, -, stays, rfl⟩ := pass.foreignReference?_eq_some_iff.mp foreign
  rw [ofMove.services] at referring
  have resolved := (pass.project.mem_referencesTo referring).2
  have moves := ofMove.movedInternalMembers regular inside
  exact .foreign (.of_left resolved stays moves) stays

end Moving

section Usages

variable {pass : Pass} {usages : List Usage} {report : Report}
  (collected : ∀ usage ∈ usages, pass.project.Collected pass.moving usage)
include collected

theorem crosses_of_mem_external {usage : Usage}
    (outside : usage ∈ (CheckState.ofUsages usages report).external) :
    pass.project.Crosses pass.moving usage.reference usage.referenced := by
  obtain ⟨listed, external⟩ := mem_ofUsages_external.mp outside
  have known := collected usage listed
  exact .of_left known.resolved (known.side.symm.trans external) known.moves

theorem atCrossing_usagesBeyondModule {finding : Finding}
    (found : finding ∈ pass.usagesBeyondModule (CheckState.ofUsages usages report).external) :
    pass.project.AtCrossing pass.moving finding.1 finding.2.code := by
  obtain ⟨_, _, -, -, usage, outside, found⟩ := pass.mem_usagesBeyondModule.mp found
  obtain ⟨keyed, code⟩ := pass.usageBeyondModule?_eq_some found
  have moves := (collected usage (mem_ofUsages_external.mp outside).1).moves
  rw [keyed]
  exact .stranded (crosses_of_mem_external collected outside) moves code

theorem atCrossing_lostUsages {finding : Finding}
    (found : finding ∈ pass.lostUsages
      (pass.externalLeft (CheckState.ofUsages usages report).external)) :
    pass.project.AtCrossing pass.moving finding.1 finding.2.code := by
  obtain ⟨usage, left, keyed, code⟩ := pass.mem_lostUsages found
  rw [keyed, code]
  exact .lostSight (crosses_of_mem_external collected (pass.mem_externalLeft.mp left).1)

end Usages

/-- A pass of a move adds conflicts of sealed hierarchies and of names to a report, and conflicts
for references that cross the boundary. -/
theorem OfMove.mem_findings {pass : Pass} (ofMove : pass.OfMove)
    (regular : pass.project.Regular) {usages : List Usage}
    (collected : ∀ usage ∈ usages, pass.project.Collected pass.moving usage) {report : Report}
    {after : CheckState} (returned : pass.check (.ofUsages usages report) = .ok after)
    {finding : Finding} (member : finding ∈ after.report.findings) :
    finding ∈ report.findings ∨
      (∃ hierarchies, pass.hierarchyFindings = .ok hierarchies ∧ finding ∈ hierarchies) ∨
      finding ∈ pass.nameClashes ∨
      pass.project.AtCrossing pass.moving finding.1 finding.2.code := by
  rcases (pass.mem_findings_of_check returned).mp member with early | beyond | ⟨later, ran, found⟩
  · exact Or.inl early
  · exact Or.inr (Or.inr (Or.inr (atCrossing_usagesBeyondModule collected beyond)))
  · refine Or.inr ?_
    rcases (pass.mem_laterFindings ran).mp found with
      ⟨reported, listed, rfl⟩ | found | found | found | found | found
    · exact Or.inr (Or.inr (ofMove.referencesOutOfScope regular listed))
    · exact Or.inr (Or.inr (atCrossing_lostUsages collected found))
    · exact Or.inr (Or.inr (ofMove.lostReferences regular found))
    · exact Or.inr (Or.inr (ofMove.foreignReferences regular found))
    · exact Or.inl found
    · exact Or.inr (Or.inl found)

theorem OfMove.atBoundary {pass : Pass} (ofMove : pass.OfMove)
    (regular : pass.project.Regular) {usages : List Usage}
    (collected : ∀ usage ∈ usages, pass.project.Collected pass.moving usage) {report : Report}
    (bounded : ∀ finding ∈ report.findings,
      pass.project.AtBoundary pass.moving finding.1 finding.2.code)
    {after : CheckState} (returned : pass.check (.ofUsages usages report) = .ok after) :
    ∀ finding ∈ after.report.findings,
      pass.project.AtBoundary pass.moving finding.1 finding.2.code := by
  intro finding member
  rcases ofMove.mem_findings regular collected returned member with
    early | ⟨hierarchies, hierarchical, found⟩ | found | crossing
  · exact bounded finding early
  · obtain ⟨id, listed, keyed, message⟩ := pass.mem_hierarchyFindings hierarchical found
    rw [keyed]
    exact .torn (ofMove.moving id listed) message
  · obtain ⟨id, walked, keyed, code⟩ := pass.mem_nameClashes found
    rw [keyed, code]
    exact .clash (ofMove.walked walked)
  · exact .crossing crossing

end Pass

theorem Project.checkElements_atBoundary {p : Project} (regular : p.Regular)
    {options : CheckOptions} {elements : List Element} {target : Target} {result : CheckResult}
    (returned : p.checkElements p.services options elements target = .ok result) :
    ∀ finding ∈ result.report.findings, p.AtBoundary elements finding.1 finding.2.code := by
  refine checkElements_induction (fun _ report _ => ∀ finding ∈ report.findings,
    p.AtBoundary elements finding.1 finding.2.code) ?unnamed ?named ?file returned
  case unnamed =>
    intro _ finding member
    cases member
  case named =>
    intro _ after checked
    refine Pass.ofMove_ofNamed.atBoundary regular (regular.collected_of_mem_filter _) ?_ checked
    intro finding member
    cases member
  case file =>
    intro _ file listed report _ outcome bounded checked
    rcases checkFile_eq_ok checked with ⟨-, rfl⟩ | ⟨after, checked, same, -⟩
    · exact bounded
    · rw [same]
      exact (Pass.ofMove_ofFile regular listed).atBoundary regular
        (regular.collected_of_mem_filter _) bounded checked

/-- Every conflict of a move stands at its boundary, whatever is moved, where to and with which
options. -/
theorem Project.conflicts_at_boundary {p : Project} (built : p.Built) (nested : p.NestedBelow 250)
    {options : CheckOptions} {request : Manifest.MoveEntry} {result : CheckResult}
    (checked : p.checkMove p.services options request = .ok result) :
    ∃ elements target, request.resolve p = .ok (elements, target) ∧
      ∀ finding ∈ result.report.findings, p.AtBoundary elements finding.1 finding.2.code := by
  obtain ⟨elements, target, resolved, returned⟩ := checkMove_eq_ok_iff.mp checked
  exact ⟨elements, target, resolved,
    checkElements_atBoundary (built.regular nested (by decide)) returned⟩

namespace Pass

def callersCalls : List BuilderCall := [
  .module "core" .jvm, .module "feature" .jvm, .module "other" .jvm,
  .directory "core/a" (.module ⟨0⟩ false) ⟨"a"⟩,
  .directory "feature/f" (.module ⟨1⟩ false) ⟨"f"⟩,
  .directory "other/b" (.module ⟨2⟩ false) ⟨"b"⟩,
  .file ⟨0⟩ "Util.kt" none, .file ⟨1⟩ "Use.kt" none, .file ⟨2⟩ "Call.kt" none,
  .decl { name := "util", kind := .function, parent := .file ⟨0⟩ },
  .decl { name := "helper", kind := .function, parent := .file ⟨0⟩ },
  .decl { name := "useIt", kind := .function, parent := .file ⟨1⟩ },
  .decl { name := "callIt", kind := .function, parent := .file ⟨2⟩ },
  .referenceFrom ⟨0⟩ ⟨1⟩ {}, .referenceFrom ⟨2⟩ ⟨0⟩ {}, .referenceFrom ⟨3⟩ ⟨0⟩ {},
  .referenceFrom ⟨3⟩ ⟨1⟩ {}]

theorem built_callers : callers.Built := ⟨callersCalls, rfl⟩

def moveUtil : Manifest.MoveEntry where
  declarations := ["a.util"]
  target := .directory "other/b" none

/-- The call of `util` from `feature` crosses the boundary from outside, and that of `helper` from
`util` from inside. -/
def movedUtil : CheckResult where
  report := callersAfter.report
  usagesFound := 2
  usagesRemaining := []

theorem checkMove_moveUtil : callers.checkMove callers.services {} moveUtil = .ok movedUtil := by
  refine Project.checkMove_eq_ok_iff.mpr ⟨[.decl ⟨0⟩], .directory ⟨2⟩ ⟨"b"⟩, rfl, ?_⟩
  decide +kernel

theorem at_boundary_moveUtil :
    (callers.Built ∧ callers.NestedBelow 250 ∧
      callers.checkMove callers.services {} moveUtil = .ok movedUtil) ∧
    ∃ elements target, moveUtil.resolve callers = .ok (elements, target) ∧
      ∀ finding ∈ movedUtil.report.findings,
        callers.AtBoundary elements finding.1 finding.2.code := by
  have nested : callers.NestedBelow 250 := by decide +kernel
  exact ⟨⟨built_callers, nested, checkMove_moveUtil⟩,
    Project.conflicts_at_boundary built_callers nested checkMove_moveUtil⟩

end Pass

end Relocation
