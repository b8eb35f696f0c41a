import Mathlib.Data.List.Basic
import Relocation.Project.Build
import Relocation.Proofs.Check.Finding
import Relocation.Proofs.Check.Report
set_option autoImplicit false

/-!
One run of all detectors. A run drops the usages that its findings explain and records the findings.
Only a sealed hierarchy can make it fail, whatever the usages and the report.

Dropping is stable: what a run leaves holds no usage that it would drop. So a run on what an earlier
one has left finds nothing that was not recorded before.
-/

namespace Relocation.Pass

variable (pass : Pass)

def externalLeft (external : List Usage) : List Usage :=
  withoutReported (pass.usagesBeyondModule external) external

def internalLeft (internal : List Usage) : List Usage :=
  withoutReferences pass.referencesOutOfScope internal

/-- What the detectors after the first find. The external usages are those that it has left. -/
def laterFindings (external : List Usage) : Except LoneHierarchy (List Finding) :=
  pass.hierarchyFindings.map fun hierarchies =>
    pass.referencesOutOfScope.map Prod.snd ++ pass.lostUsages external ++ pass.lostReferences ++
      pass.foreignReferences ++ hierarchies ++ pass.nameClashes

theorem check_eq_ok_iff (before after : CheckState) :
    pass.check before = .ok after ↔
      ∃ later, pass.laterFindings (pass.externalLeft before.external) = .ok later ∧
        after = {
          external := pass.externalLeft before.external
          internal := pass.internalLeft before.internal
          report := before.report.pushAll
            (pass.usagesBeyondModule before.external ++ later) } := by
  unfold check laterFindings
  cases pass.hierarchyFindings with
  | error fault =>
    constructor
    · intro returned
      cases returned
    · rintro ⟨later, failed, -⟩
      cases failed
  | ok hierarchies =>
    constructor
    · intro returned
      cases returned
      exact ⟨_, rfl, by simp only [List.append_assoc]; rfl⟩
    · rintro ⟨later, found, rfl⟩
      cases found
      simp only [← List.append_assoc]
      rfl

/-- Only the detector of sealed hierarchies can keep a pass from returning. -/
theorem check_returns_iff (before : CheckState) :
    (∃ after, pass.check before = .ok after) ↔
      ∃ findings, pass.hierarchyFindings = .ok findings := by
  simp only [pass.check_eq_ok_iff, laterFindings]
  cases pass.hierarchyFindings with
  | error fault => simp [Except.map]
  | ok findings => simp [Except.map]

theorem hierarchyFindings_of_nil (nothing : pass.elements = []) :
    pass.hierarchyFindings = .ok [] := by
  rw [hierarchyFindings, nothing, relaxedFindings, strictFindings, ite_self]

theorem mem_laterFindings {external : List Usage} {later : List Finding}
    (returned : pass.laterFindings external = .ok later) {finding : Finding} :
    finding ∈ later ↔
      (∃ reported ∈ pass.referencesOutOfScope, reported.2 = finding) ∨
        finding ∈ pass.lostUsages external ∨ finding ∈ pass.lostReferences ∨
        finding ∈ pass.foreignReferences ∨
        (∃ hierarchies, pass.hierarchyFindings = .ok hierarchies ∧ finding ∈ hierarchies) ∨
        finding ∈ pass.nameClashes := by
  unfold laterFindings at returned
  cases hierarchical : pass.hierarchyFindings with
  | error fault =>
    rw [hierarchical] at returned
    cases returned
  | ok hierarchies =>
    rw [hierarchical] at returned
    cases returned
    simp only [List.mem_append, List.mem_map, or_assoc, Except.ok.injEq, exists_eq_left']

/-- The later detectors by the numbers of their messages. Only the two of lost sight share theirs. -/
theorem laterFindings_cases {external : List Usage} {later : List Finding}
    (returned : pass.laterFindings external = .ok later) {finding : Finding}
    (member : finding ∈ later) :
    ((∃ reported ∈ pass.referencesOutOfScope, reported.2 = finding) ∧ finding.2.code = 1003) ∨
      ((finding ∈ pass.lostUsages external ∨ finding ∈ pass.lostReferences) ∧
        finding.2.code = 1101) ∨
      (finding ∈ pass.foreignReferences ∧ finding.2.code = 1102) ∨
      ((∃ hierarchies, pass.hierarchyFindings = .ok hierarchies ∧ finding ∈ hierarchies) ∧
        1201 ≤ finding.2.code ∧ finding.2.code ≤ 1204) ∨
      (finding ∈ pass.nameClashes ∧ finding.2.code = 1301) := by
  rcases (pass.mem_laterFindings returned).mp member with
    found | found | found | found | torn | found
  · obtain ⟨reported, listed, rfl⟩ := found
    obtain ⟨module, _, moved, _, _, id, _, result⟩ := pass.mem_referencesOutOfScope.mp listed
    exact Or.inl ⟨⟨reported, listed, rfl⟩, (pass.referenceOutOfScope?_eq_some result).2.1⟩
  · obtain ⟨usage, _, _, code⟩ := pass.mem_lostUsages found
    exact Or.inr (Or.inl ⟨Or.inl found, code⟩)
  · obtain ⟨moved, _, id, _, _, code⟩ := pass.mem_lostReferences found
    exact Or.inr (Or.inl ⟨Or.inr found, code⟩)
  · obtain ⟨member, _, id, _, _, code⟩ := pass.mem_foreignReferences found
    exact Or.inr (Or.inr (Or.inl ⟨found, code⟩))
  · obtain ⟨hierarchies, hierarchical, found⟩ := id torn
    obtain ⟨element, _, _, code⟩ := pass.mem_hierarchyFindings hierarchical found
    exact Or.inr (Or.inr (Or.inr (Or.inl ⟨torn, code⟩)))
  · obtain ⟨moved, _, _, code⟩ := pass.mem_nameClashes found
    exact Or.inr (Or.inr (Or.inr (Or.inr ⟨found, code⟩)))

theorem mem_findings_of_check {before after : CheckState}
    (returned : pass.check before = .ok after) {finding : Finding} :
    finding ∈ after.report.findings ↔ finding ∈ before.report.findings ∨
      finding ∈ pass.usagesBeyondModule before.external ∨
      ∃ later, pass.laterFindings (pass.externalLeft before.external) = .ok later ∧
        finding ∈ later := by
  obtain ⟨later, found, rfl⟩ := (pass.check_eq_ok_iff _ _).mp returned
  simp [Report.mem_findings_pushAll, found]

def FindsTorn (finding : Finding) : Prop :=
  ∃ findings, pass.hierarchyFindings = .ok findings ∧ finding ∈ findings

section Codes

variable {pass} {before after : CheckState} (returned : pass.check before = .ok after)
  {finding : Finding}
include returned

/-- Beyond the first detector a conflict comes into a report by one of the later ones. -/
theorem mem_findings_of_check_later {detected : Prop} (code : 1002 < finding.2.code)
    (found : ∀ later, pass.laterFindings (pass.externalLeft before.external) = .ok later →
      (finding ∈ later ↔ detected)) :
    finding ∈ after.report.findings ↔ finding ∈ before.report.findings ∨ detected := by
  obtain ⟨later, ran, -⟩ := (pass.check_eq_ok_iff _ _).mp returned
  have first : finding ∉ pass.usagesBeyondModule before.external := by
    intro beyond
    obtain ⟨_, _, -, -, usage, -, found⟩ := pass.mem_usagesBeyondModule.mp beyond
    have early := (pass.usageBeyondModule?_eq_some found).2
    omega
  rw [pass.mem_findings_of_check returned, or_iff_right first]
  refine or_congr_right ⟨?_, fun holds => ⟨later, ran, (found later ran).mpr holds⟩⟩
  rintro ⟨other, again, member⟩
  exact (found other again).mp member

theorem mem_findings_of_check_outOfScope (code : finding.2.code = 1003) :
    finding ∈ after.report.findings ↔ finding ∈ before.report.findings ∨
      ∃ reported ∈ pass.referencesOutOfScope, reported.2 = finding := by
  refine mem_findings_of_check_later returned (by omega) fun later ran => ⟨fun member => ?_, ?_⟩
  · rcases pass.laterFindings_cases ran member with found | other | other | other | other
    · exact found.1
    all_goals omega
  · intro found
    exact (pass.mem_laterFindings ran).mpr (Or.inl found)

/-- Conflicts of lost sight come from the two detectors of visibility. -/
theorem mem_findings_of_check_lostSight (code : finding.2.code = 1101) :
    finding ∈ after.report.findings ↔ finding ∈ before.report.findings ∨
      finding ∈ pass.lostUsages (pass.externalLeft before.external) ∨
      finding ∈ pass.lostReferences := by
  refine mem_findings_of_check_later returned (by omega) fun later ran => ⟨fun member => ?_, ?_⟩
  · rcases pass.laterFindings_cases ran member with other | found | other | other | other
    · omega
    · exact found.1
    all_goals omega
  · intro lost
    exact (pass.mem_laterFindings ran).mpr (Or.inr (lost.imp_right Or.inl))

theorem mem_findings_of_check_foreign (code : finding.2.code = 1102) :
    finding ∈ after.report.findings ↔
      finding ∈ before.report.findings ∨ finding ∈ pass.foreignReferences := by
  refine mem_findings_of_check_later returned (by omega) fun later ran => ⟨fun member => ?_, ?_⟩
  · rcases pass.laterFindings_cases ran member with other | other | found | other | other
    · omega
    · omega
    · exact found.1
    all_goals omega
  · intro found
    exact (pass.mem_laterFindings ran).mpr (.inr (.inr (.inr (.inl found))))

theorem mem_findings_of_check_torn (code : 1201 ≤ finding.2.code ∧ finding.2.code ≤ 1204) :
    finding ∈ after.report.findings ↔
      finding ∈ before.report.findings ∨ pass.FindsTorn finding := by
  refine mem_findings_of_check_later returned (by omega) fun later ran => ⟨fun member => ?_, ?_⟩
  · rcases pass.laterFindings_cases ran member with other | other | other | found | other
    · omega
    · omega
    · omega
    · exact found.1
    · omega
  · intro found
    exact (pass.mem_laterFindings ran).mpr (.inr (.inr (.inr (.inr (.inl found)))))

end Codes

/-- A report that was empty before has the conflicts of sealed hierarchies from this run alone. -/
theorem mem_findings_of_first_check {usages : List Usage} {after : CheckState}
    (returned : pass.check (.ofUsages usages {}) = .ok after) {finding : Finding}
    (code : 1201 ≤ finding.2.code ∧ finding.2.code ≤ 1204) :
    finding ∈ after.report.findings ↔ pass.FindsTorn finding := by
  rw [mem_findings_of_check_torn returned code]
  exact or_iff_right List.not_mem_nil

theorem mem_externalLeft {external : List Usage} {usage : Usage} :
    usage ∈ pass.externalLeft external ↔
      usage ∈ external ∧
        ∀ finding ∈ pass.usagesBeyondModule external, finding.1 ≠ .decl usage.referenced := by
  simp [externalLeft, withoutReported]

/-- A usage beyond the module of the target is dropped itself, so none is left. -/
theorem usagesBeyondModule_externalLeft (external : List Usage) :
    pass.usagesBeyondModule (pass.externalLeft external) = [] := by
  apply List.eq_nil_iff_forall_not_mem.mpr
  intro finding member
  rcases pass.mem_usagesBeyondModule.mp member with
    ⟨location, module, located, rooted, usage, left, found⟩
  obtain ⟨origin, unexplained⟩ := pass.mem_externalLeft.mp left
  have reported : finding ∈ pass.usagesBeyondModule external :=
    pass.mem_usagesBeyondModule.mpr ⟨location, module, located, rooted, usage, origin, found⟩
  exact unexplained finding reported (pass.usageBeyondModule?_eq_some found).1

theorem externalLeft_externalLeft (external : List Usage) :
    pass.externalLeft (pass.externalLeft external) = pass.externalLeft external := by
  calc
    pass.externalLeft (pass.externalLeft external)
        = withoutReported (pass.usagesBeyondModule (pass.externalLeft external))
            (pass.externalLeft external) := rfl
    _ = withoutReported [] (pass.externalLeft external) := by
        rw [usagesBeyondModule_externalLeft]
    _ = pass.externalLeft external := by simp [withoutReported]

theorem internalLeft_internalLeft (internal : List Usage) :
    pass.internalLeft (pass.internalLeft internal) = pass.internalLeft internal := by
  simp [internalLeft, withoutReferences]

/-- A run on what an earlier run of the same pass has left changes nothing. -/
theorem check_of_check {before after : CheckState} (returned : pass.check before = .ok after) :
    pass.check after = .ok after := by
  obtain ⟨later, found, rfl⟩ := (pass.check_eq_ok_iff _ _).mp returned
  apply (pass.check_eq_ok_iff _ _).mpr
  refine ⟨later, ?_, ?_⟩
  · simpa [externalLeft_externalLeft] using found
  · have recorded : ∀ finding ∈ later, finding.2 ∈ (before.report.pushAll
        (pass.usagesBeyondModule before.external ++ later)).get finding.1 := by
      intro finding member
      exact (Report.mem_get_pushAll ..).mpr (Or.inr (List.mem_append_right _ member))
    simp only [externalLeft_externalLeft, internalLeft_internalLeft,
      usagesBeyondModule_externalLeft, List.nil_append]
    rw [Report.pushAll_of_mem_get _ recorded]

/-- In module `core`, `util` calls `helper`. Module `feature` calls `util`, and module `other` calls
both. -/
def callers : Project :=
  let p := (({} : Project).addModule "core" .jvm).addModule "feature" .jvm
  let p := p.addModule "other" .jvm
  let p := p.addDirectory "core/a" (.module ⟨0⟩ false) ⟨"a"⟩
  let p := p.addDirectory "feature/f" (.module ⟨1⟩ false) ⟨"f"⟩
  let p := p.addDirectory "other/b" (.module ⟨2⟩ false) ⟨"b"⟩
  let p := ((p.addFile ⟨0⟩ "Util.kt" none).addFile ⟨1⟩ "Use.kt" none).addFile ⟨2⟩ "Call.kt" none
  let p := p.addDecl { name := "util", kind := .function, parent := .file ⟨0⟩ }
  let p := p.addDecl { name := "helper", kind := .function, parent := .file ⟨0⟩ }
  let p := p.addDecl { name := "useIt", kind := .function, parent := .file ⟨1⟩ }
  let p := p.addDecl { name := "callIt", kind := .function, parent := .file ⟨2⟩ }
  let p := (p.addReferenceFrom ⟨0⟩ ⟨1⟩ {}).addReferenceFrom ⟨2⟩ ⟨0⟩ {}
  (p.addReferenceFrom ⟨3⟩ ⟨0⟩ {}).addReferenceFrom ⟨3⟩ ⟨1⟩ {}

/-- Looks at `util` and `helper` on their way to `other`, of which only `util` is said to move. -/
def partialMove : Pass where
  project := callers
  services := callers.services
  options := {}
  target := .directory ⟨2⟩ ⟨"b"⟩
  elements := [⟨0⟩, ⟨1⟩]
  moving := [.decl ⟨0⟩]

def callersBefore : CheckState :=
  .ofUsages (callers.collectUsages callers.services [.decl ⟨0⟩, .decl ⟨1⟩]) {}

/-- The call of `util` from `feature` strands all usages of `util`, and `util` itself will not find
`helper`; the call of `helper` from `other` is left. -/
def callersAfter : CheckState where
  external := [⟨⟨3⟩, ⟨1⟩, false⟩]
  internal := []
  report := ⟨[
    (.decl ⟨0⟩, [⟨1001, .error,
      "Function util() referenced in function useIt() will not be accessible from module feature"⟩
    ]),
    (.decl ⟨1⟩, [⟨1003, .error,
      "Function helper(), referenced in function util(), will not be accessible in module other"⟩
    ])]⟩

theorem check_partialMove : partialMove.check callersBefore = .ok callersAfter := by decide +kernel

theorem check_callersAfter :
    partialMove.check callersBefore = .ok callersAfter ∧
      partialMove.check callersAfter = .ok callersAfter :=
  ⟨check_partialMove, check_of_check partialMove check_partialMove⟩

end Relocation.Pass
