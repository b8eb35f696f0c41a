import Relocation.Proofs.Check.Run
set_option autoImplicit false

/-!
The algebra of reports. Merging one report into another records the conflicts of the second group by
group, in the order of its elements, while a detector records them one by one as it finds them. The
two agree, order included, since an element keeps its place once it has one: the step is
`pushAll_findings_push`, and the run over a series of recordings is `pushAll_findings_pushAll`. The
laws of merging follow from it.
-/

namespace Relocation.Report

/-- The reports that come about by recording conflicts and by merging. -/
inductive Made : Report → Prop
  | empty : Made {}
  | push {report : Report} (made : Made report) (finding : Finding) : Made (report.push finding)
  | extend {report other : Report} (made : Made report) (otherMade : Made other) :
      Made (report.extend other)

/-- Every element has one entry, which lists some conflict and none of them twice. -/
structure WellFormed (report : Report) : Prop extends Tidy report where
  recorded : ∀ entry ∈ report.entries, entry.2 ≠ []

theorem wellFormed_empty : WellFormed {} where
  toTidy := tidy_empty
  recorded := fun _ member => nomatch member

theorem WellFormed.tail {entry : Element × List Conflict} {rest : List (Element × List Conflict)}
    (wellFormed : WellFormed ⟨entry :: rest⟩) : WellFormed ⟨rest⟩ where
  elements := (List.nodup_cons.mp wellFormed.elements).2
  conflicts := (List.forall_mem_cons.mp wellFormed.conflicts).2
  recorded := (List.forall_mem_cons.mp wellFormed.recorded).2

theorem forall_insert_ne_nil {element : Element} {conflict : Conflict}
    {entries : List (Element × List Conflict)} (recorded : ∀ entry ∈ entries, entry.2 ≠ []) :
    ∀ entry ∈ insert element conflict entries, entry.2 ≠ [] := by
  induction entries with
  | nil => simp [insert]
  | cons entry rest inductionHypothesis =>
    rcases entry with ⟨other, conflicts⟩
    obtain ⟨filled, restFilled⟩ := List.forall_mem_cons.mp recorded
    by_cases keyed : other = element
    · have grown : (if conflict ∈ conflicts then conflicts else conflicts ++ [conflict]) ≠ [] := by
        split
        · exact filled
        · simp
      simpa [insert, keyed] using ⟨grown, by simpa using restFilled⟩
    · simp only [insert, keyed, if_false]
      exact List.forall_mem_cons.mpr ⟨filled, inductionHypothesis restFilled⟩

theorem WellFormed.push {report : Report} (wellFormed : report.WellFormed) (finding : Finding) :
    (report.push finding).WellFormed where
  toTidy := wellFormed.toTidy.insert
  recorded := forall_insert_ne_nil wellFormed.recorded

theorem pushAll_induction {motive : Report → Prop} {report : Report} (start : motive report)
    (step : ∀ report finding, motive report → motive (report.push finding))
    (findings : List Finding) : motive (report.pushAll findings) :=
  List.foldlRecOn findings push start fun report known finding _ => step report finding known

theorem WellFormed.pushAll {report : Report} (wellFormed : report.WellFormed)
    (findings : List Finding) : (report.pushAll findings).WellFormed :=
  pushAll_induction wellFormed (fun _ finding before => before.push finding) findings

theorem Made.wellFormed {report : Report} (made : report.Made) : report.WellFormed := by
  induction made with
  | empty => exact wellFormed_empty
  | push _ finding inductionHypothesis => exact inductionHypothesis.push finding
  | extend _ _ inductionHypothesis _ => exact inductionHypothesis.pushAll _

theorem isEmpty_iff_conflicts {report : Report} (wellFormed : report.WellFormed) :
    report.isEmpty = true ↔ report.conflicts = [] := by
  rw [isEmpty, List.isEmpty_iff, conflicts, List.flatMap_eq_nil_iff]
  constructor
  · intro empty entry member
    simp [empty] at member
  · intro bare
    refine List.eq_nil_iff_forall_not_mem.mpr fun entry member => ?_
    exact wellFormed.recorded entry member (bare entry member)

/-- There are two severities, so each conflict is counted once. -/
theorem count_error_add_count_warning (report : Report) :
    report.count .error + report.count .warning = report.size := by
  have warning : (fun conflict : Conflict => conflict.severity == Severity.warning) =
      fun conflict => decide ¬(conflict.severity == Severity.error) = true := by
    funext conflict
    cases conflict.severity <;> rfl
  rw [count, count, size, warning]
  exact (List.length_eq_countP_add_countP _).symm

theorem elements_isPrefix_insert (element : Element) (conflict : Conflict)
    (entries : List (Element × List Conflict)) :
    elements ⟨entries⟩ <+: elements ⟨insert element conflict entries⟩ := by
  induction entries with
  | nil => exact List.nil_prefix
  | cons entry rest inductionHypothesis =>
    rcases entry with ⟨other, conflicts⟩
    by_cases keyed : other = element
    · simp [insert, elements, keyed]
    · simp only [insert, keyed, if_false, elements, List.map_cons]
      exact List.prefix_cons_inj other |>.mpr inductionHypothesis

theorem get_isPrefix_insert (key element : Element) (conflict : Conflict)
    (entries : List (Element × List Conflict)) :
    get ⟨entries⟩ element <+: get ⟨insert key conflict entries⟩ element := by
  induction entries with
  | nil => exact List.nil_prefix
  | cons entry rest inductionHypothesis =>
    rcases entry with ⟨other, conflicts⟩
    by_cases keyed : other = key
    · simp only [insert, keyed, if_true, get_mk_cons]
      split
      · split
        · exact List.prefix_rfl
        · exact List.prefix_append _ _
      · exact List.prefix_rfl
    · simp only [insert, keyed, if_false, get_mk_cons]
      split
      · exact List.prefix_rfl
      · exact inductionHypothesis

theorem elements_isPrefix_pushAll (report : Report) (findings : List Finding) :
    report.elements <+: (report.pushAll findings).elements :=
  pushAll_induction (motive := fun later => report.elements <+: later.elements) List.prefix_rfl
    (fun _ _ before => before.trans (elements_isPrefix_insert ..)) findings

theorem get_isPrefix_pushAll (report : Report) (findings : List Finding) (element : Element) :
    report.get element <+: (report.pushAll findings).get element :=
  pushAll_induction (motive := fun later => report.get element <+: later.get element)
    List.prefix_rfl (fun _ _ before => before.trans (get_isPrefix_insert ..)) findings

/-- An element that has its place already takes a conflict before or after another element does. -/
theorem insert_insert {element other : Element} {conflict added : Conflict}
    {entries : List (Element × List Conflict)} (placed : element ∈ elements ⟨entries⟩)
    (differ : other ≠ element) :
    insert element conflict (insert other added entries) =
      insert other added (insert element conflict entries) := by
  induction entries with
  | nil => simp [elements] at placed
  | cons entry rest inductionHypothesis =>
    rcases entry with ⟨key, conflicts⟩
    by_cases first : key = element
    · subst key
      simp [insert, Ne.symm differ]
    · have below : element ∈ elements ⟨rest⟩ := by
        simpa [elements, Ne.symm first] using placed
      by_cases second : key = other
      · subst key
        simp [insert, first]
      · simp [insert, first, second, inductionHypothesis below]

theorem push_pushAll {report : Report} {finding : Finding} {findings : List Finding}
    (placed : finding.1 ∈ report.elements)
    (differ : ∀ other ∈ findings, other.1 ≠ finding.1) :
    (report.pushAll findings).push finding = (report.push finding).pushAll findings := by
  induction findings generalizing report with
  | nil => rfl
  | cons other rest inductionHypothesis =>
    obtain ⟨otherDiffers, restDiffers⟩ := List.forall_mem_cons.mp differ
    have kept : finding.1 ∈ (report.push other).elements :=
      (elements_isPrefix_insert ..).subset placed
    have swapped : (report.push other).push finding = (report.push finding).push other :=
      congrArg Report.mk (insert_insert placed otherDiffers)
    rw [pushAll_cons, pushAll_cons, inductionHypothesis kept restDiffers, swapped]

theorem pushAll_append (report : Report) (first second : List Finding) :
    report.pushAll (first ++ second) = (report.pushAll first).pushAll second :=
  List.foldl_append ..

theorem fst_mem_elements_of_mem_findings {report : Report} {finding : Finding}
    (member : finding ∈ report.findings) : finding.1 ∈ report.elements := by
  obtain ⟨entry, listed, within⟩ := List.mem_flatMap.mp member
  obtain ⟨conflict, -, rfl⟩ := List.mem_map.mp within
  exact List.mem_map_of_mem listed

theorem mem_get_of_mem_findings {report : Report} (tidy : report.Tidy) {finding : Finding}
    (member : finding ∈ report.findings) : finding.2 ∈ report.get finding.1 := by
  rcases report with ⟨entries⟩
  induction entries with
  | nil => simp [findings] at member
  | cons entry rest inductionHypothesis =>
    rcases entry with ⟨element, conflicts⟩
    obtain ⟨fresh, apart⟩ := List.nodup_cons.mp tidy.elements
    obtain ⟨-, restTidy⟩ := List.forall_mem_cons.mp tidy.conflicts
    rw [get_mk_cons]
    rcases List.mem_append.mp member with here | below
    · obtain ⟨conflict, listed, rfl⟩ := List.mem_map.mp here
      simpa using listed
    · have differs : finding.1 ≠ element := by
        rintro rfl
        exact fresh (fst_mem_elements_of_mem_findings below)
      rw [if_neg differs]
      exact inductionHypothesis ⟨apart, restTidy⟩ below

theorem mem_elements_pushAll {report : Report} {findings : List Finding} {finding : Finding}
    (member : finding ∈ findings) : finding.1 ∈ (report.pushAll findings).elements := by
  induction findings generalizing report with
  | nil => cases member
  | cons first rest inductionHypothesis =>
    rw [pushAll_cons]
    rcases List.mem_cons.mp member with rfl | later
    · exact (elements_isPrefix_pushAll ..).subset (mem_elements_insert.mpr (Or.inr rfl))
    · exact inductionHypothesis later

/-- Merging a report in which one more conflict was recorded is merging the report and recording the
conflict. -/
theorem pushAll_findings_push (report : Report) {merged : Report}
    (wellFormed : merged.WellFormed) (finding : Finding) :
    report.pushAll (merged.push finding).findings =
      (report.pushAll merged.findings).push finding := by
  rcases merged with ⟨entries⟩
  rcases finding with ⟨key, conflict⟩
  induction entries generalizing report with
  | nil => rfl
  | cons entry rest inductionHypothesis =>
    rcases entry with ⟨element, conflicts⟩
    by_cases keyed : element = key
    · subst element
      by_cases known : conflict ∈ conflicts
      · have listed : (key, conflict) ∈ findings ⟨(key, conflicts) :: rest⟩ := by simp [known]
        have held : conflict ∈ (report.pushAll (findings ⟨(key, conflicts) :: rest⟩)).get key :=
          (mem_get_pushAll ..).mpr (Or.inr listed)
        have absorbed : (report.pushAll (findings ⟨(key, conflicts) :: rest⟩)).push (key, conflict) =
            report.pushAll (findings ⟨(key, conflicts) :: rest⟩) := push_of_mem_get _ held
        rw [absorbed]
        simp [push, insert, known]
      · -- The conflict is the last of its group; the groups behind it are about other elements.
        have placed : key ∈
            (report.pushAll (conflicts.map fun listed => (key, listed))).elements := by
          obtain ⟨some, member⟩ := List.exists_mem_of_ne_nil conflicts
            (wellFormed.recorded _ (List.mem_cons_self ..))
          exact mem_elements_pushAll (List.mem_map_of_mem (f := fun listed => (key, listed)) member)
        have differ : ∀ other ∈ findings ⟨rest⟩, other.1 ≠ key := by
          rintro other member rfl
          exact (List.nodup_cons.mp wellFormed.elements).1 (fst_mem_elements_of_mem_findings member)
        have grown : findings ((⟨(key, conflicts) :: rest⟩ : Report).push (key, conflict)) =
            (conflicts.map fun listed => (key, listed)) ++ (key, conflict) :: findings ⟨rest⟩ := by
          simp [push, insert, known]
        rw [grown, findings_mk_cons, pushAll_append, pushAll_append, pushAll_cons]
        exact (push_pushAll placed differ).symm
    · have below : findings ((⟨(element, conflicts) :: rest⟩ : Report).push (key, conflict)) =
          (conflicts.map fun listed => (element, listed)) ++
            findings ((⟨rest⟩ : Report).push (key, conflict)) := by
        simp [push, insert, keyed]
      rw [below, findings_mk_cons, pushAll_append, pushAll_append]
      exact inductionHypothesis _ wellFormed.tail

theorem pushAll_findings_pushAll (report : Report) {merged : Report}
    (wellFormed : merged.WellFormed) (findings : List Finding) :
    report.pushAll (merged.pushAll findings).findings =
      (report.pushAll merged.findings).pushAll findings := by
  induction findings generalizing merged with
  | nil => rfl
  | cons finding rest inductionHypothesis =>
    rw [pushAll_cons, inductionHypothesis (wellFormed.push finding),
      pushAll_findings_push report wellFormed, pushAll_cons]

theorem extend_pushAll (report : Report) (findings : List Finding) :
    report.extend (pushAll {} findings) = report.pushAll findings :=
  pushAll_findings_pushAll report wellFormed_empty findings

theorem extend_assoc (report third : Report) {other : Report} (wellFormed : other.WellFormed) :
    (report.extend other).extend third = report.extend (other.extend third) :=
  (pushAll_findings_pushAll report wellFormed third.findings).symm

theorem Made.empty_extend {report : Report} (made : report.Made) :
    Report.extend {} report = report := by
  induction made with
  | empty => rfl
  | @push report made finding inductionHypothesis =>
    calc
      Report.extend {} (report.push finding)
          = (Report.extend {} report).push finding := pushAll_findings_push {} made.wellFormed finding
      _ = report.push finding := by rw [inductionHypothesis]
  | @extend report other made _ inductionHypothesis _ =>
    rw [← extend_assoc {} other made.wellFormed, inductionHypothesis]

/-- A report holds what was merged into it and what it held before, so neither is added again. -/
theorem extend_extend_self (other : Report) {report : Report} (tidy : report.Tidy) :
    (report.extend other).extend report = report.extend other := by
  refine pushAll_of_mem_get _ fun finding member => ?_
  exact (mem_get_pushAll ..).mpr (Or.inl (mem_get_of_mem_findings tidy member))

end Relocation.Report

namespace Relocation.Pass

/-- The report that a check starts from has no part in what the check does: it is extended by the
report of the check alone. -/
theorem check_eq_map_extend (pass : Pass) (before : CheckState) :
    pass.check before = (pass.check { before with report := {} }).map fun after =>
      { after with report := before.report.extend after.report } := by
  unfold check
  cases pass.hierarchyFindings with
  | error fault => rfl
  | ok hierarchies =>
    simp only [bind, Except.bind, pure, Except.pure, Except.map]
    rw [Report.extend_pushAll]

end Relocation.Pass

namespace Relocation.Report

/-- Reports that come about by recording and merging hold no empty list and nothing twice, so their
numbers agree. Merging puts the new behind the old, is associative with the empty report as its
identity, and does nothing the second time. A detector may record what it finds or merge a report
of it, and a check extends the report that it starts from. -/
theorem merging_laws {report other : Report} (made : report.Made) (otherMade : other.Made)
    (third : Report) (findings : List Finding) (pass : Pass) (before : CheckState) :
    (report.elements.Nodup ∧ ∀ entry ∈ report.entries, entry.2 ≠ [] ∧ entry.2.Nodup) ∧
      ((report.isEmpty = true ↔ report.size = 0) ∧ (report.size = 0 ↔ report.conflicts = []) ∧
        report.count .error + report.count .warning = report.size) ∧
      (report.elements <+: (report.extend other).elements ∧
        ∀ element, report.get element <+: (report.extend other).get element) ∧
      (report.extend other).extend third = report.extend (other.extend third) ∧
      report.extend {} = report ∧ extend {} report = report ∧
      (report.extend other).extend report = report.extend other ∧
      report.extend (pushAll {} findings) = report.pushAll findings ∧
      pass.check before = (pass.check { before with report := {} }).map fun after =>
        { after with report := before.report.extend after.report } := by
  have wellFormed := made.wellFormed
  have sizes : report.size = 0 ↔ report.conflicts = [] := List.length_eq_zero_iff
  refine ⟨⟨wellFormed.elements, fun entry member => ?_⟩, ⟨?_, sizes, ?_⟩, ⟨?_, fun element => ?_⟩,
    ?_, rfl, made.empty_extend, ?_, ?_, ?_⟩
  · exact ⟨wellFormed.recorded entry member, wellFormed.conflicts entry member⟩
  · rw [isEmpty_iff_conflicts wellFormed, sizes]
  · exact count_error_add_count_warning report
  · exact elements_isPrefix_pushAll ..
  · exact get_isPrefix_pushAll ..
  · exact extend_assoc report third otherMade.wellFormed
  · exact extend_extend_self other wellFormed.toTidy
  · exact extend_pushAll report findings
  · exact pass.check_eq_map_extend before

def calling : Conflict :=
  ⟨1101, .error, "Function callIt() uses function util() which will be inaccessible after move"⟩

def clashing : Conflict :=
  ⟨1301, .error, "Following declarations would clash: to move function util() and destination " ++
    "function util() declared in scope b"⟩

/-- What is known of `util` and `callIt` before the check in `Pass.check_partialMove`, which finds
the first of it again. -/
def noted : List Finding :=
  [(.decl ⟨0⟩, ⟨1001, .error,
      "Function util() referenced in function useIt() will not be accessible from module feature"⟩),
    (.decl ⟨3⟩, calling), (.decl ⟨0⟩, clashing)]

/-- What another look at the same declarations gives, in another order. -/
def notedAgain : List Finding := [(.decl ⟨3⟩, calling), (.decl ⟨0⟩, calling)]

theorem made_pushAll {report : Report} (made : report.Made) (findings : List Finding) :
    (report.pushAll findings).Made :=
  pushAll_induction made (fun _ finding before => before.push finding) findings

theorem merging_laws_callers :
    Made (pushAll {} noted) ∧ Made (pushAll {} notedAgain) ∧
      (extend (pushAll {} noted) (pushAll {} notedAgain)).extend (pushAll {} noted) =
        extend (pushAll {} noted) (pushAll {} notedAgain) ∧
      extend (pushAll {} noted) (pushAll {} notedAgain) ≠
        extend (pushAll {} notedAgain) (pushAll {} noted) ∧
      Pass.partialMove.check { Pass.callersBefore with report := pushAll {} noted } =
        .ok { Pass.callersAfter with
          report := extend (pushAll {} noted) Pass.callersAfter.report } := by
  have notedMade := made_pushAll .empty noted
  have againMade := made_pushAll .empty notedAgain
  obtain ⟨-, -, -, -, -, -, again, -, extended⟩ :=
    merging_laws notedMade againMade {} [] Pass.partialMove
      { Pass.callersBefore with report := pushAll {} noted }
  refine ⟨notedMade, againMade, again, by decide +kernel, ?_⟩
  have alone : Pass.partialMove.check
      { Pass.callersBefore with report := {} } = .ok Pass.callersAfter := Pass.check_partialMove
  rw [extended, alone]
  rfl

end Relocation.Report
