import Mathlib.Data.List.Nodup
import Relocation.Check.Report
set_option autoImplicit false

/-!
What a report holds after conflicts were recorded in it. Through `Report.get` a report is a set of
conflicts for each element: recording adds one conflict to one element and changes nothing else, and
a conflict that is held already leaves the report as it is, order included.
-/

namespace Relocation.Report

theorem get_mk_cons (other element : Element) (conflicts : List Conflict)
    (rest : List (Element × List Conflict)) :
    get ⟨(other, conflicts) :: rest⟩ element =
      if element = other then conflicts else get ⟨rest⟩ element := by
  by_cases same : element = other
  · simp [get, same]
  · have differs : (element == other) = false := beq_eq_false_iff_ne.mpr same
    simp [get, List.lookup_cons, differs, same]

@[simp]
theorem get_empty (element : Element) : get {} element = [] := rfl

theorem mem_get_insert (element key : Element) (conflict added : Conflict)
    (entries : List (Element × List Conflict)) :
    conflict ∈ get ⟨insert key added entries⟩ element ↔
      conflict ∈ get ⟨entries⟩ element ∨ (element = key ∧ conflict = added) := by
  induction entries with
  | nil =>
    simp only [insert, get_mk_cons]
    by_cases same : element = key <;> simp [same, get]
  | cons entry rest inductionHypothesis =>
    rcases entry with ⟨other, conflicts⟩
    by_cases keyed : other = key
    · subst other
      by_cases same : element = key
      · subst element
        by_cases known : added ∈ conflicts
        · have absorbed : conflict = added → conflict ∈ conflicts := fun equal => equal ▸ known
          simpa [insert, get_mk_cons, known] using absorbed
        · simp [insert, get_mk_cons, known]
      · simp [insert, get_mk_cons, same]
    · by_cases same : element = other
      · subst element
        simp [insert, get_mk_cons, keyed]
      · simp [insert, get_mk_cons, keyed, same, inductionHypothesis]

theorem insert_of_mem_get {element : Element} {conflict : Conflict}
    {entries : List (Element × List Conflict)} (known : conflict ∈ get ⟨entries⟩ element) :
    insert element conflict entries = entries := by
  induction entries with
  | nil => simp [get] at known
  | cons entry rest inductionHypothesis =>
    rcases entry with ⟨other, conflicts⟩
    rw [get_mk_cons] at known
    by_cases keyed : other = element
    · subst other
      rw [if_pos rfl] at known
      simp [insert, known]
    · rw [if_neg (Ne.symm keyed)] at known
      simp [insert, keyed, inductionHypothesis known]

variable (report : Report)

@[simp]
theorem mem_get_push (finding : Finding) (element : Element) (conflict : Conflict) :
    conflict ∈ (report.push finding).get element ↔
      conflict ∈ report.get element ∨ (element, conflict) = finding := by
  rw [push, mem_get_insert, Prod.ext_iff]

theorem push_of_mem_get {finding : Finding} (known : finding.2 ∈ report.get finding.1) :
    report.push finding = report := by
  rw [push, insert_of_mem_get known]

@[simp]
theorem pushAll_nil : report.pushAll [] = report := rfl

theorem pushAll_cons (finding : Finding) (findings : List Finding) :
    report.pushAll (finding :: findings) = (report.push finding).pushAll findings := rfl

@[simp]
theorem mem_get_pushAll (findings : List Finding) (element : Element) (conflict : Conflict) :
    conflict ∈ (report.pushAll findings).get element ↔
      conflict ∈ report.get element ∨ (element, conflict) ∈ findings := by
  induction findings generalizing report with
  | nil => simp
  | cons finding rest inductionHypothesis =>
    rw [pushAll_cons, inductionHypothesis, mem_get_push, List.mem_cons, or_assoc]

theorem pushAll_of_mem_get {findings : List Finding}
    (known : ∀ finding ∈ findings, finding.2 ∈ report.get finding.1) :
    report.pushAll findings = report := by
  induction findings with
  | nil => rfl
  | cons finding rest inductionHypothesis =>
    rw [pushAll_cons, push_of_mem_get report (known finding (List.mem_cons_self ..))]
    exact inductionHypothesis fun other member => known other (List.mem_cons_of_mem _ member)

@[simp]
theorem findings_mk_cons (element : Element) (conflicts : List Conflict)
    (rest : List (Element × List Conflict)) :
    findings ⟨(element, conflicts) :: rest⟩ =
      (conflicts.map fun conflict => (element, conflict)) ++ findings ⟨rest⟩ := rfl

theorem mem_findings_insert (finding added : Finding) (entries : List (Element × List Conflict)) :
    finding ∈ findings ⟨insert added.1 added.2 entries⟩ ↔
      finding ∈ findings ⟨entries⟩ ∨ finding = added := by
  induction entries with
  | nil => simp [insert, findings]
  | cons entry rest inductionHypothesis =>
    rcases entry with ⟨other, conflicts⟩
    rcases added with ⟨key, conflict⟩
    by_cases keyed : other = key
    · subst other
      by_cases known : conflict ∈ conflicts
      · have listed : (key, conflict) ∈ findings ⟨(key, conflicts) :: rest⟩ := by simp [known]
        have absorbed : finding = (key, conflict) →
            finding ∈ findings ⟨(key, conflicts) :: rest⟩ := fun same => same ▸ listed
        simpa [insert, known] using absorbed
      · simp only [insert, if_true, known, if_false, findings_mk_cons, List.map_append,
          List.mem_append, List.map_cons, List.map_nil, List.mem_singleton]
        tauto
    · simp only [insert, keyed, if_false, findings_mk_cons, List.mem_append] at *
      rw [inductionHypothesis, or_assoc]

theorem mem_findings_pushAll (report : Report) (recorded : List Finding) (finding : Finding) :
    finding ∈ (report.pushAll recorded).findings ↔
      finding ∈ report.findings ∨ finding ∈ recorded := by
  induction recorded generalizing report with
  | nil => simp
  | cons first rest inductionHypothesis =>
    rw [pushAll_cons, inductionHypothesis, push, mem_findings_insert, List.mem_cons, or_assoc]

/-- Every element has one entry, and no entry lists a conflict twice. -/
structure Tidy (report : Report) : Prop where
  elements : report.elements.Nodup
  conflicts : ∀ entry ∈ report.entries, entry.2.Nodup

theorem tidy_empty : Tidy {} where
  elements := List.nodup_nil
  conflicts := fun _ member => nomatch member

theorem mem_elements_insert {element key : Element} {conflict : Conflict}
    {entries : List (Element × List Conflict)} :
    element ∈ elements ⟨insert key conflict entries⟩ ↔
      element ∈ elements ⟨entries⟩ ∨ element = key := by
  unfold elements
  induction entries with
  | nil => simp [insert]
  | cons entry rest inductionHypothesis =>
    rcases entry with ⟨other, conflicts⟩
    by_cases keyed : other = key
    · subst other
      simp only [insert, if_true, List.map_cons, List.mem_cons]
      exact ⟨Or.inl, fun listed => listed.elim id Or.inl⟩
    · simp only [insert, keyed, if_false, List.map_cons, List.mem_cons, inductionHypothesis,
        or_assoc]

theorem Tidy.insert {element : Element} {conflict : Conflict}
    {entries : List (Element × List Conflict)} (tidy : Tidy ⟨entries⟩) :
    Tidy ⟨insert element conflict entries⟩ := by
  induction entries with
  | nil => exact ⟨List.nodup_singleton _, by simp [Report.insert]⟩
  | cons entry rest inductionHypothesis =>
    rcases entry with ⟨other, conflicts⟩
    obtain ⟨fresh, apart⟩ := List.nodup_cons.mp tidy.elements
    obtain ⟨single, restSingle⟩ := List.forall_mem_cons.mp tidy.conflicts
    by_cases keyed : other = element
    · have grown : (if conflict ∈ conflicts then conflicts else conflicts ++ [conflict]).Nodup := by
        split
        · exact single
        next new =>
          exact single.append (List.nodup_singleton _) (by simpa using new)
      simp only [Report.insert, keyed, if_true]
      exact ⟨keyed ▸ tidy.elements, List.forall_mem_cons.mpr ⟨grown, restSingle⟩⟩
    · obtain ⟨below, belowSingle⟩ := inductionHypothesis ⟨apart, restSingle⟩
      simp only [Report.insert, keyed, if_false]
      refine ⟨List.nodup_cons.mpr ⟨?_, below⟩, List.forall_mem_cons.mpr ⟨single, belowSingle⟩⟩
      intro again
      rcases mem_elements_insert.mp again with early | same
      · exact fresh early
      · exact keyed same

theorem Tidy.pushAll {report : Report} (tidy : report.Tidy) (findings : List Finding) :
    (report.pushAll findings).Tidy := by
  induction findings generalizing report with
  | nil => exact tidy
  | cons finding rest inductionHypothesis =>
    rw [pushAll_cons]
    exact inductionHypothesis tidy.insert

theorem Tidy.nodup_findings {report : Report} (tidy : report.Tidy) : report.findings.Nodup := by
  have apart : report.entries.Pairwise fun one other => one.1 ≠ other.1 :=
    List.pairwise_map.mp tidy.elements
  refine List.nodup_flatMap.mpr ⟨?_, apart.imp ?_⟩
  · intro entry member
    exact (tidy.conflicts entry member).map fun one other same => (Prod.mk.inj same).2
  · intro one other differ finding inOne inOther
    obtain ⟨_, -, rfl⟩ := List.mem_map.mp inOne
    obtain ⟨_, -, same⟩ := List.mem_map.mp inOther
    exact differ (Prod.mk.inj same).1.symm

/-- The conflicts of sealed hierarchies that a move tears apart under the relaxed rule. -/
def torn (report : Report) : List Finding :=
  report.findings.filter fun finding => finding.2.code == 1203 || finding.2.code == 1204

theorem mem_torn {report : Report} {finding : Finding} :
    finding ∈ report.torn ↔
      finding ∈ report.findings ∧ (finding.2.code = 1203 ∨ finding.2.code = 1204) := by
  simp [torn]

/-- The conflicts of sealed hierarchies that a move tears apart under the strict rule. -/
def parted (report : Report) : List Finding :=
  report.findings.filter fun finding => finding.2.code == 1201 || finding.2.code == 1202

theorem mem_parted {report : Report} {finding : Finding} :
    finding ∈ report.parted ↔
      finding ∈ report.findings ∧ (finding.2.code = 1201 ∨ finding.2.code = 1202) := by
  simp [parted]

end Relocation.Report
