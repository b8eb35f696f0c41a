import Mathlib.Data.List.Basic
import Relocation.Proofs.Check.Run
import Relocation.Proofs.Repetition
set_option autoImplicit false

/-!
Where the usages of a run go. A run records its own findings whatever the report holds already, so
its findings are those that it puts into an empty report. From these each dropped usage is
explained: an external one by a conflict that strands its declaration, an internal one by its
reference. Everything else is left, in order, and only what is left is looked at for lost sight.
-/

namespace Relocation

/-- Whether a report says of a declaration that other modules will not reach it. -/
def Report.strands (report : Report) (id : DeclId) : Bool :=
  (report.get (.decl id)).any fun conflict => conflict.code == 1001 || conflict.code == 1002

namespace Pass

variable (pass : Pass)

def reportsReference (id : RefId) : Bool :=
  pass.referencesOutOfScope.any fun reported => reported.1 == id

/-- Whether a usage is explained by a run that puts `alone` into an empty report. -/
def explains (alone : Report) (usage : Usage) : Bool :=
  if usage.isInternal then pass.reportsReference usage.reference
  else alone.strands usage.referenced

/-- What became of the usages in a run from `before` to `after`, in terms of `alone`, the report
that the run makes of an empty one. -/
structure Accounted (before : CheckState) (alone : Report) (after : CheckState) : Prop where
  recorded : ∀ element conflict, conflict ∈ after.report.get element ↔
    conflict ∈ before.report.get element ∨ conflict ∈ alone.get element
  findings : ∀ finding, finding ∈ after.report.findings ↔
    finding ∈ before.report.findings ∨ finding ∈ alone.findings
  external : after.external =
    before.external.filter fun usage => !alone.strands usage.referenced
  internal : after.internal =
    before.internal.filter fun usage => !pass.reportsReference usage.reference
  /-- The references by which internal usages are dropped are those of the report. -/
  beyondScope : ∀ finding, finding ∈ alone.findings ∧ finding.2.code = 1003 ↔
    ∃ reported ∈ pass.referencesOutOfScope, reported.2 = finding
  /-- A reported reference leaves a conflict on the declaration that it resolves to. -/
  outOfScope : ∀ usage ∈ before.internal, pass.reportsReference usage.reference = true →
    ∃ target, (pass.project.reference usage.reference).target = some target ∧
      ∃ conflict ∈ after.report.get (.decl target), conflict.code = 1003
  /-- Two detectors report lost sight. That of the usages is shown those that are left. -/
  lostSight : ∀ finding, finding ∈ alone.findings ∧ finding.2.code = 1101 ↔
    finding ∈ pass.lostUsages after.external ∨ finding ∈ pass.lostReferences
  /-- It finds usages of declarations that are not stranded. -/
  unstranded : ∀ finding ∈ pass.lostUsages after.external,
    ∃ usage ∈ after.external, finding.1 = .reference usage.reference ∧
      alone.strands usage.referenced = false
  /-- If usages name what their references resolve to, lost sight is not reported for a usage of a
  stranded declaration, except where the reference is itself in moved code. -/
  unblamed : (∀ usage ∈ before.external,
      (pass.project.reference usage.reference).target = some usage.referenced) →
    ∀ usage ∈ before.external, alone.strands usage.referenced = true →
      ∀ finding ∈ alone.findings, finding.2.code = 1101 →
        finding.1 = .reference usage.reference →
          finding ∉ pass.lostUsages after.external ∧ finding ∈ pass.lostReferences

/-- Only the first detector strands declarations. -/
theorem code_laterFindings {external : List Usage} {later : List Finding}
    (returned : pass.laterFindings external = .ok later) {finding : Finding}
    (member : finding ∈ later) : 1002 < finding.2.code := by
  rcases pass.laterFindings_cases returned member with code | code | code | code | code <;>
    omega

theorem mem_laterFindings_of_reported {external : List Usage} {later : List Finding}
    (returned : pass.laterFindings external = .ok later) {reported : RefId × Finding}
    (listed : reported ∈ pass.referencesOutOfScope) : reported.2 ∈ later :=
  (pass.mem_laterFindings returned).mpr (Or.inl ⟨reported, listed, rfl⟩)

theorem strands_pushAll_iff {external left : List Usage} {later : List Finding}
    (returned : pass.laterFindings left = .ok later) (id : DeclId) :
    (Report.pushAll {} (pass.usagesBeyondModule external ++ later)).strands id = true ↔
      ∃ finding ∈ pass.usagesBeyondModule external, finding.1 = .decl id := by
  simp only [Report.strands, List.any_eq_true, Report.mem_get_pushAll, Report.get_empty,
    List.not_mem_nil, false_or, List.mem_append, Bool.or_eq_true, beq_iff_eq]
  constructor
  · rintro ⟨conflict, found | found, code⟩
    · exact ⟨_, found, rfl⟩
    · have above := pass.code_laterFindings returned found
      simp only at above
      omega
  · rintro ⟨⟨element, conflict⟩, found, rfl⟩
    obtain ⟨location, module, _, _, usage, _, result⟩ := pass.mem_usagesBeyondModule.mp found
    exact ⟨conflict, Or.inl found, (pass.usageBeyondModule?_eq_some result).2⟩

theorem externalLeft_eq_filter (external : List Usage) {left : List Usage} {later : List Finding}
    (returned : pass.laterFindings left = .ok later) :
    pass.externalLeft external = external.filter fun usage =>
      !(Report.pushAll {} (pass.usagesBeyondModule external ++ later)).strands
        usage.referenced := by
  unfold externalLeft withoutReported
  congr 1
  funext usage
  congr 1
  apply Bool.eq_iff_iff.mpr
  rw [pass.strands_pushAll_iff returned]
  simp

theorem strands_of_mem_externalLeft {external left : List Usage} {later : List Finding}
    (returned : pass.laterFindings left = .ok later) {usage : Usage}
    (kept : usage ∈ pass.externalLeft external) :
    (Report.pushAll {} (pass.usagesBeyondModule external ++ later)).strands usage.referenced =
      false := by
  rw [pass.externalLeft_eq_filter external returned] at kept
  simpa using (List.mem_filter.mp kept).2

/-- A usage that is left shares its reference with no usage of a stranded declaration, if usages
name what their references resolve to. -/
theorem not_mem_lostUsages_of_strands {external left : List Usage} {later : List Finding}
    (returned : pass.laterFindings left = .ok later)
    (genuine : ∀ usage ∈ external,
      (pass.project.reference usage.reference).target = some usage.referenced)
    {usage : Usage} (origin : usage ∈ external)
    (stranded : (Report.pushAll {} (pass.usagesBeyondModule external ++ later)).strands
      usage.referenced = true) {finding : Finding}
    (keyed : finding.1 = .reference usage.reference) :
    finding ∉ pass.lostUsages (pass.externalLeft external) := by
  intro lost
  obtain ⟨other, kept, keyedOther, -⟩ := pass.mem_lostUsages lost
  have sameReference : other.reference = usage.reference := by
    simpa using keyedOther.symm.trans keyed
  have sameTarget : some other.referenced = some usage.referenced := by
    rw [← genuine usage origin, ← genuine other (pass.mem_externalLeft.mp kept).1, sameReference]
  have strandedOther := pass.strands_of_mem_externalLeft returned kept
  rw [Option.some.inj sameTarget, stranded] at strandedOther
  cases strandedOther

section FirstCheck

variable {before after : CheckState}
  (returned : pass.check { before with report := {} } = .ok after) (finding : Finding)
include returned

theorem mem_beyondScope_of_first_check :
    finding ∈ after.report.findings ∧ finding.2.code = 1003 ↔
      ∃ reported ∈ pass.referencesOutOfScope, reported.2 = finding := by
  have recorded (code : finding.2.code = 1003) := mem_findings_of_check_outOfScope returned code
  constructor
  · rintro ⟨member, code⟩
    exact ((recorded code).mp member).resolve_left List.not_mem_nil
  · rintro ⟨reported, listed, rfl⟩
    obtain ⟨_, _, _, _, _, _, _, result⟩ := pass.mem_referencesOutOfScope.mp listed
    have code := (pass.referenceOutOfScope?_eq_some result).2.1
    exact ⟨(recorded code).mpr (Or.inr ⟨reported, listed, rfl⟩), code⟩

theorem mem_lostSight_of_first_check :
    finding ∈ after.report.findings ∧ finding.2.code = 1101 ↔
      finding ∈ pass.lostUsages (pass.externalLeft before.external) ∨
        finding ∈ pass.lostReferences := by
  have recorded (code : finding.2.code = 1101) := mem_findings_of_check_lostSight returned code
  constructor
  · rintro ⟨member, code⟩
    exact ((recorded code).mp member).resolve_left List.not_mem_nil
  · intro lost
    have code : finding.2.code = 1101 := by
      rcases lost with lost | lost
      · obtain ⟨usage, -, -, code⟩ := pass.mem_lostUsages lost
        exact code
      · obtain ⟨moved, -, id, -, -, code⟩ := pass.mem_lostReferences lost
        exact code
    exact ⟨(recorded code).mpr (Or.inr lost), code⟩

end FirstCheck

theorem accounted_of_check {before after : CheckState} (returned : pass.check before = .ok after) :
    ∃ alone, pass.check { before with report := {} } = .ok alone ∧
      pass.Accounted before alone.report after := by
  obtain ⟨later, found, rfl⟩ := (pass.check_eq_ok_iff _ _).mp returned
  have lonely := (pass.check_eq_ok_iff { before with report := {} } _).mpr ⟨later, found, rfl⟩
  refine ⟨_, lonely, ?_⟩
  constructor
  case recorded => simp
  case findings =>
    intro finding
    simp only [Report.mem_findings_pushAll]
    exact or_congr_right (or_iff_right List.not_mem_nil).symm
  case external => exact pass.externalLeft_eq_filter before.external found
  case internal => rfl
  case beyondScope => exact pass.mem_beyondScope_of_first_check lonely
  case outOfScope =>
    intro usage _ listed
    obtain ⟨reported, member, same⟩ := List.any_eq_true.mp listed
    obtain ⟨module, _, moved, _, _, id, _, result⟩ := pass.mem_referencesOutOfScope.mp member
    obtain ⟨rfl, code, target, resolved, keyed⟩ := pass.referenceOutOfScope?_eq_some result
    rw [beq_iff_eq] at same
    refine ⟨target, same ▸ resolved, reported.2.2, ?_, code⟩
    apply (Report.mem_get_pushAll ..).mpr
    rw [← keyed]
    exact Or.inr (List.mem_append_right _ (pass.mem_laterFindings_of_reported found member))
  case lostSight => exact pass.mem_lostSight_of_first_check lonely
  case unstranded =>
    intro finding lost
    obtain ⟨usage, left, keyed, -⟩ := pass.mem_lostUsages lost
    exact ⟨usage, left, keyed, pass.strands_of_mem_externalLeft found left⟩
  case unblamed =>
    intro genuine usage origin stranded finding reported code keyed
    have unblamed := pass.not_mem_lostUsages_of_strands found genuine origin stranded keyed
    have lost := (pass.mem_lostSight_of_first_check lonely finding).mp ⟨reported, code⟩
    exact ⟨unblamed, lost.resolve_left unblamed⟩

def ofFile (project : Project) (services : Services) (options : CheckOptions) (target : Target)
    (moving : List Element) (file : FileId) : Pass :=
  { project, services, options, target, elements := project.topLevel file, moving }

/-- What the check of a file gives back for a list of usages. The survivors are told if there is a
usage that the run explains. -/
structure FileAccounted (usages : List Usage) (alone after : CheckState)
    (result : Report × Option (List Usage)) : Prop where
  report : result.1 = after.report
  told : result.2.isSome = true ↔ ∃ usage ∈ usages, pass.explains alone.report usage = true
  survivors : ∀ left, result.2 = some left → left = after.external ++ after.internal ∧
    left.Nodup ∧ ∀ usage, usage ∈ left ↔
      usage ∈ usages ∧ pass.explains alone.report usage = false
  external : ∀ usage ∈ after.external, usage.isInternal = false
  internal : ∀ usage ∈ after.internal, usage.isInternal = true

theorem mem_ofUsages_external {usages : List Usage} {report : Report} {usage : Usage} :
    usage ∈ (CheckState.ofUsages usages report).external ↔
      usage ∈ usages ∧ usage.isInternal = false := by
  simp [CheckState.ofUsages, externalUsages]

theorem mem_ofUsages_internal {usages : List Usage} {report : Report} {usage : Usage} :
    usage ∈ (CheckState.ofUsages usages report).internal ↔
      usage ∈ usages ∧ usage.isInternal = true := by
  simp [CheckState.ofUsages, internalUsages]

/-- What a run leaves of the usages of a file are those that it does not explain. -/
theorem Accounted.mem_usages {usages : List Usage} {report alone : Report} {after : CheckState}
    (account : pass.Accounted (.ofUsages usages report) alone after) (usage : Usage) :
    usage ∈ after.external ++ after.internal ↔
      usage ∈ usages ∧ pass.explains alone usage = false := by
  rw [List.mem_append, account.external, account.internal, List.mem_filter, List.mem_filter,
    mem_ofUsages_external, mem_ofUsages_internal, explains]
  cases usage.isInternal <;> simp

theorem Accounted.nodup_usages {usages : List Usage} {report alone : Report} {after : CheckState}
    (account : pass.Accounted (.ofUsages usages report) alone after) :
    (after.external ++ after.internal).Nodup := by
  rw [account.external, account.internal]
  refine List.Nodup.append ?_ ?_ ?_
  · exact (Repetition.nodup_eraseDups _).filter _
  · exact (Repetition.nodup_eraseDups _).filter _
  · intro usage outside inside
    have external := (mem_ofUsages_external.mp (List.mem_filter.mp outside).1).2
    have internal := (mem_ofUsages_internal.mp (List.mem_filter.mp inside).1).2
    rw [external] at internal
    cases internal

theorem Accounted.dropped_iff {usages : List Usage} {report alone : Report} {after : CheckState}
    (account : pass.Accounted (.ofUsages usages report) alone after) :
    (after.external.length ≠ (CheckState.ofUsages usages report).external.length ∨
        after.internal.length ≠ (CheckState.ofUsages usages report).internal.length) ↔
      ∃ usage ∈ usages, pass.explains alone usage = true := by
  rw [account.external, account.internal, Ne, Ne, List.length_filter_eq_length_iff,
    List.length_filter_eq_length_iff]
  simp only [mem_ofUsages_external, mem_ofUsages_internal, explains]
  constructor
  · rintro (external | internal)
    · push Not at external
      rcases external with ⟨usage, ⟨member, outside⟩, stranded⟩
      exact ⟨usage, member, by simpa [outside] using stranded⟩
    · push Not at internal
      rcases internal with ⟨usage, ⟨member, inside⟩, reported⟩
      exact ⟨usage, member, by simpa [inside] using reported⟩
  · rintro ⟨usage, member, explained⟩
    cases side : usage.isInternal with
    | false =>
      refine Or.inl fun all => ?_
      have unexplained := all usage ⟨member, side⟩
      simp [side] at explained
      simp [explained] at unexplained
    | true =>
      refine Or.inr fun all => ?_
      have unexplained := all usage ⟨member, side⟩
      simp [side] at explained
      simp [explained] at unexplained

theorem fileAccounted_of_checkFile {project : Project} {services : Services}
    {options : CheckOptions} {target : Target} {moving : List Element} {file : FileId}
    {usages : List Usage} {report : Report} {result : Report × Option (List Usage)}
    (declares : project.topLevel file ≠ [])
    (returned : checkFile project services options target moving file usages report =
      .ok result) :
    ∃ alone after,
      (ofFile project services options target moving file).check (.ofUsages usages {}) =
        .ok alone ∧
      (ofFile project services options target moving file).check (.ofUsages usages report) =
        .ok after ∧
      (ofFile project services options target moving file).FileAccounted usages alone after
        result := by
  have nonempty : ¬ (project.topLevel file).isEmpty = true := by simpa using declares
  unfold checkFile at returned
  rw [if_neg nonempty] at returned
  cases checked : (ofFile project services options target moving file).check
      (.ofUsages usages report) with
  | error fault =>
    unfold ofFile at checked
    simp only [checked] at returned
    cases returned
  | ok after =>
    obtain ⟨alone, lonely, account⟩ := accounted_of_check _ checked
    refine ⟨alone, after, lonely, rfl, ?_⟩
    unfold ofFile at checked
    simp only [checked] at returned
    cases returned
    refine ⟨rfl, ?_, ?_, ?_, ?_⟩
    · rw [← account.dropped_iff]
      simp
    · intro left told
      split at told
      · cases told
        exact ⟨rfl, account.nodup_usages, account.mem_usages⟩
      · cases told
    · intro usage member
      rw [account.external] at member
      exact (mem_ofUsages_external.mp (List.mem_filter.mp member).1).2
    · intro usage member
      rw [account.internal] at member
      exact (mem_ofUsages_internal.mp (List.mem_filter.mp member).1).2

/-- The usages that are left of those of a file, all of them if none is said to be dropped. -/
theorem mem_getD_of_checkFile {project : Project} {services : Services} {options : CheckOptions}
    {target : Target} {moving : List Element} {file : FileId} {usages : List Usage}
    {report : Report} {result : Report × Option (List Usage)} {after : CheckState}
    (declares : project.topLevel file ≠ [])
    (returned : checkFile project services options target moving file usages report = .ok result)
    (checked : (ofFile project services options target moving file).check
      (.ofUsages usages report) = .ok after) (usage : Usage) :
    usage ∈ result.2.getD usages ↔ usage ∈ after.usages := by
  obtain ⟨alone, same, lonely, ran, files⟩ := fileAccounted_of_checkFile declares returned
  obtain ⟨other, again, account⟩ := accounted_of_check _ checked
  obtain rfl : same = after := by simpa [ran] using checked
  obtain rfl : alone = other := by
    rw [CheckState.ofUsages] at again
    rw [CheckState.ofUsages, again] at lonely
    simpa using lonely.symm
  rw [CheckState.usages, account.mem_usages]
  cases told : result.2 with
  | none =>
    have silent : ¬ ∃ usage ∈ usages, explains _ alone.report usage = true :=
      fun explained => by simpa [told] using files.told.mpr explained
    simp only [not_exists, not_and, Bool.not_eq_true] at silent
    simpa using silent usage
  | some left => exact (files.survivors left told).2.2 usage

/-- Usages are dropped exactly when they are explained, by a run on its own and by the check of a
file, which tells the survivors when it drops any. -/
theorem usages_dropped_iff_explained :
    (∀ (pass : Pass) (before after : CheckState), pass.check before = .ok after →
      ∃ alone, pass.check { before with report := {} } = .ok alone ∧
        pass.Accounted before alone.report after) ∧
    ∀ (project : Project) (services : Services) (options : CheckOptions) (target : Target)
      (moving : List Element) (file : FileId) (usages : List Usage) (report : Report)
      (result : Report × Option (List Usage)),
      project.topLevel file ≠ [] →
      checkFile project services options target moving file usages report = .ok result →
      ∃ alone after,
        (ofFile project services options target moving file).check (.ofUsages usages {}) =
          .ok alone ∧
        (ofFile project services options target moving file).check (.ofUsages usages report) =
          .ok after ∧
        (ofFile project services options target moving file).FileAccounted usages alone after
          result :=
  ⟨fun pass _ _ returned => pass.accounted_of_check returned,
    fun _ _ _ _ _ _ _ _ _ declares returned => fileAccounted_of_checkFile declares returned⟩

/-- The file of `callers` moves as a whole, while only its first function is said to move. -/
theorem usages_dropped_partialMove :
    (∃ alone, partialMove.check { callersBefore with report := {} } = .ok alone ∧
      partialMove.Accounted callersBefore alone.report callersAfter) ∧
    ∃ alone after,
      (ofFile callers callers.services {} (.directory ⟨2⟩ ⟨"b"⟩) [.decl ⟨0⟩] ⟨0⟩).check
        (.ofUsages callersBefore.usages {}) = .ok alone ∧
      (ofFile callers callers.services {} (.directory ⟨2⟩ ⟨"b"⟩) [.decl ⟨0⟩] ⟨0⟩).check
        (.ofUsages callersBefore.usages {}) = .ok after ∧
      (ofFile callers callers.services {} (.directory ⟨2⟩ ⟨"b"⟩) [.decl ⟨0⟩] ⟨0⟩).FileAccounted
        callersBefore.usages alone after (callersAfter.report, some callersAfter.usages) :=
  ⟨usages_dropped_iff_explained.1 _ _ _ check_partialMove,
    usages_dropped_iff_explained.2 _ _ _ _ _ _ _ _ _ (by decide) (by decide +kernel)⟩

end Pass

end Relocation
