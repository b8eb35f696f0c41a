import Mathlib.Data.List.Basic
import Relocation.Check.Pipeline
import Relocation.Proofs.Repetition
import Relocation.Proofs.Sealed.Start
set_option autoImplicit false

/-!
What the findings of each detector look like: the element that they are about, and the number of
their message. Numbers of different detectors differ, but for the two that look for lost sight.
-/

namespace Relocation

@[simp]
theorem Message.code_conflict (message : Message) (arguments : List String) :
    (message.conflict arguments).code = message.code := rfl

namespace Pass

variable (pass : Pass)

theorem mem_usagesBeyondModule {external : List Usage} {finding : Finding} :
    finding ∈ pass.usagesBeyondModule external ↔
      ∃ location module, pass.location? = some location ∧
        (location.root pass.project).module? = some module ∧
        ∃ usage ∈ external, pass.usageBeyondModule? location module usage = some finding := by
  unfold usagesBeyondModule
  cases located : pass.location? with
  | none => simp
  | some location =>
    cases rooted : (location.root pass.project).module? with
    | none => simp [rooted]
    | some module => simp [rooted]

theorem usageBeyondModule?_eq_some {location : TargetLocation} {module : ModuleId} {usage : Usage}
    {finding : Finding} (found : pass.usageBeyondModule? location module usage = some finding) :
    finding.1 = .decl usage.referenced ∧ (finding.2.code = 1001 ∨ finding.2.code = 1002) := by
  simp only [usageBeyondModule?] at found
  split at found
  · cases found
  · obtain ⟨usageModule, _, rfl⟩ := Option.map_eq_some_iff.mp found
    refine ⟨rfl, ?_⟩
    split
    · exact Or.inr rfl
    · exact Or.inl rfl

theorem referenceOutOfScope?_eq_some_iff {module : ModuleId} {scope : ModuleScope} {id : RefId}
    {reported : RefId × Finding} :
    pass.referenceOutOfScope? module scope id = some reported ↔
      ∃ target owner, (pass.project.reference id).target = some target ∧
        (pass.project.reference id).owner = some owner ∧
        (pass.project.decl target).flags.builtin = false ∧
        pass.isMoving (.decl target) = false ∧ pass.isNameable module scope target = false ∧
        reported = (id, .decl target, Message.referenceOutOfScope.conflict [
          pass.describeDecl target, pass.describeDecl owner, pass.describeModule module]) := by
  simp only [referenceOutOfScope?, Option.bind_eq_bind, Option.bind_eq_some_iff]
  constructor
  · rintro ⟨target, resolved, found⟩
    split at found
    · simp at found
    next unseen =>
      simp only [Option.pure_def, Option.bind_eq_some_iff, Option.some.injEq] at found
      obtain ⟨owner, owned, rfl⟩ := found
      simp only [Bool.or_eq_true, not_or, Bool.not_eq_true] at unseen
      exact ⟨target, owner, resolved, owned, unseen.1.1, unseen.1.2, unseen.2, rfl⟩
  · rintro ⟨target, owner, resolved, owned, notBuiltin, staying, unseen, rfl⟩
    exact ⟨target, resolved, by simp [notBuiltin, staying, unseen, owned]⟩

theorem referenceOutOfScope?_eq_some {module : ModuleId} {scope : ModuleScope} {id : RefId}
    {reported : RefId × Finding}
    (found : pass.referenceOutOfScope? module scope id = some reported) :
    reported.1 = id ∧ reported.2.2.code = 1003 ∧
      ∃ target, (pass.project.reference id).target = some target ∧
        reported.2.1 = .decl target := by
  obtain ⟨target, _, resolved, -, -, -, -, rfl⟩ := pass.referenceOutOfScope?_eq_some_iff.mp found
  exact ⟨rfl, rfl, target, resolved, rfl⟩

theorem mem_referencesOutOfScope {reported : RefId × Finding} :
    reported ∈ pass.referencesOutOfScope ↔
      ∃ module, pass.targetModule? = some module ∧
        ∃ moved ∈ pass.walked, pass.project.moduleOf? moved ≠ some module ∧
          ∃ id ∈ pass.project.referencesWithin moved,
            pass.referenceOutOfScope? module (pass.project.platformScope module) id =
              some reported := by
  unfold referencesOutOfScope
  cases targeted : pass.targetModule? with
  | none => simp
  | some module => simp [and_assoc]

theorem exposed_of_mem_lostUsages {external : List Usage} {finding : Finding}
    (found : finding ∈ pass.lostUsages external) :
    ∃ usage ∈ external, (pass.exposedOwner? usage).isSome = true ∧
      finding.1 = .reference usage.reference ∧ finding.2.code = 1101 := by
  unfold lostUsages at found
  cases targeted : pass.targetContainer? with
  | none => simp [targeted] at found
  | some target =>
    simp only [targeted, List.mem_map, List.mem_filter] at found
    rcases found with ⟨⟨usage, owner⟩, ⟨exposed, _⟩, rfl⟩
    have paired := (Repetition.eraseDupsBy_sublist _ _).subset exposed
    simp only [List.mem_filterMap, Option.map_eq_some_iff, Prod.mk.injEq] at paired
    rcases paired with ⟨origin, member, other, owned, rfl, rfl⟩
    exact ⟨origin, member, Option.isSome_of_mem owned, rfl, rfl⟩

theorem mem_lostUsages {external : List Usage} {finding : Finding}
    (found : finding ∈ pass.lostUsages external) :
    ∃ usage ∈ external, finding.1 = .reference usage.reference ∧ finding.2.code = 1101 := by
  obtain ⟨usage, member, -, keyed, code⟩ := pass.exposed_of_mem_lostUsages found
  exact ⟨usage, member, keyed, code⟩

/-- To refer to a constructor, its class has to stay visible as well. -/
theorem staysAccessible_iff {target : Container} {id : DeclId} {reference : RefId} :
    pass.staysAccessible target id reference = true ↔
      pass.staysVisible target id reference = true ∧
        ∀ owner, (pass.project.decl id).kind = .constructor →
          (pass.project.decl id).parent = .decl owner →
            pass.staysVisible target owner reference = true := by
  unfold staysAccessible
  cases kind : (pass.project.decl id).kind <;> cases parent : (pass.project.decl id).parent <;>
    simp [kind, parent]

theorem lostReference?_eq_some_iff {target : Container} {moved : DeclId} {id : RefId}
    {finding : Finding} :
    pass.lostReference? target moved id = some finding ↔
      ∃ referenced, (pass.project.reference id).target = some referenced ∧
        pass.isMoving (.decl referenced) = false ∧
        (pass.project.decl referenced).hasVisibility = true ∧
        pass.staysAccessible target referenced id = false ∧
        finding = (.reference id, Message.inaccessible.conflict [
          pass.describeDecl moved, pass.describeDecl referenced]) := by
  simp only [lostReference?, Option.bind_eq_bind, Option.bind_eq_some_iff]
  constructor
  · rintro ⟨referenced, resolved, found⟩
    split at found
    · simp at found
    next lost =>
      simp only [Option.pure_def, Option.some.injEq] at found
      simp only [Bool.or_eq_true, Bool.not_eq_true', not_or, Bool.not_eq_true,
        Bool.not_eq_false] at lost
      exact ⟨referenced, resolved, lost.1.1, lost.1.2, lost.2, found.symm⟩
  · rintro ⟨referenced, resolved, staying, judged, lost, rfl⟩
    exact ⟨referenced, resolved, by simp [staying, judged, lost]⟩

theorem mem_lostReferences_iff {finding : Finding} :
    finding ∈ pass.lostReferences ↔
      ∃ target, pass.targetContainer? = some target ∧
        ∃ moved ∈ pass.walked, ∃ id ∈ pass.project.referencesWithin moved,
          pass.lostReference? target moved id = some finding := by
  unfold lostReferences
  cases targeted : pass.targetContainer? with
  | none => simp
  | some target => simp

theorem mem_lostReferences {finding : Finding} (found : finding ∈ pass.lostReferences) :
    ∃ moved ∈ pass.walked, ∃ id ∈ pass.project.referencesWithin moved,
      finding.1 = .reference id ∧ finding.2.code = 1101 := by
  obtain ⟨_, -, moved, walked, id, within, lost⟩ := pass.mem_lostReferences_iff.mp found
  obtain ⟨_, -, -, -, -, rfl⟩ := pass.lostReference?_eq_some_iff.mp lost
  exact ⟨moved, walked, id, within, rfl, rfl⟩

theorem foreignReference?_eq_some_iff {module : ModuleId} {member : DeclId} {id : RefId}
    {finding : Finding} :
    pass.foreignReference? module member id = some finding ↔
      ∃ usageModule, pass.project.moduleOfFile? (pass.project.reference id).file =
          some usageModule ∧ usageModule ≠ module ∧
        pass.project.implementsModule usageModule module = false ∧
        pass.isMoving (.reference id) = false ∧
        finding = (.reference id, Message.internalInaccessible.conflict [
          pass.describeUsage id, pass.describeDecl member]) := by
  simp only [foreignReference?, Option.bind_eq_bind, Option.bind_eq_some_iff]
  constructor
  · rintro ⟨usageModule, located, found⟩
    split at found
    · simp at found
    next foreign =>
      simp only [Option.pure_def, Option.some.injEq] at found
      simp only [not_or, Bool.not_eq_true] at foreign
      exact ⟨usageModule, located, foreign.1, foreign.2.1, foreign.2.2, found.symm⟩
  · rintro ⟨usageModule, located, other, unrelated, staying, rfl⟩
    exact ⟨usageModule, located, by simp [other, unrelated, staying]⟩

theorem mem_foreignReferences_iff {finding : Finding} :
    finding ∈ pass.foreignReferences ↔
      ∃ module, pass.targetModule? = some module ∧
        ∃ member ∈ pass.movedInternalMembers, ∃ id ∈ pass.services.referencesTo member,
          pass.foreignReference? module member id = some finding := by
  unfold foreignReferences
  cases targeted : pass.targetModule? with
  | none => simp
  | some module => simp

theorem mem_foreignReferences {finding : Finding} (found : finding ∈ pass.foreignReferences) :
    ∃ member ∈ pass.movedInternalMembers, ∃ id ∈ pass.services.referencesTo member,
      finding.1 = .reference id ∧ finding.2.code = 1102 := by
  obtain ⟨_, -, member, moved, id, referring, foreign⟩ := pass.mem_foreignReferences_iff.mp found
  obtain ⟨_, -, -, -, -, rfl⟩ := pass.foreignReference?_eq_some_iff.mp foreign
  exact ⟨member, moved, id, referring, rfl, rfl⟩

theorem code_strictFinding (element root : DeclId) :
    (pass.strictFinding element root).2.code = if element = root then 1201 else 1202 := by
  unfold strictFinding
  split <;> rfl

/-- A finding is held against an element not yet seen whose family does not move as a whole: the
class from which it is judged, with all inheritors of that. -/
theorem mem_strictFindings {seen elements : List DeclId} {finding : Finding}
    (found : finding ∈ pass.strictFindings seen elements) :
    ∃ element ∈ elements, element ∉ seen ∧ ∃ root, pass.strictRoot? element = some root ∧
      finding = pass.strictFinding element root ∧
      ∃ member ∈ root :: pass.sealedSubclasses root, pass.isMoving (.decl member) = false := by
  induction elements generalizing seen with
  | nil => simp [strictFindings] at found
  | cons element rest inductionHypothesis =>
    have later {more : List DeclId} (grown : seen ⊆ more)
        (found : finding ∈ pass.strictFindings more rest) :
        ∃ other ∈ element :: rest, other ∉ seen ∧ ∃ root, pass.strictRoot? other = some root ∧
          finding = pass.strictFinding other root ∧
          ∃ member ∈ root :: pass.sealedSubclasses root,
            pass.isMoving (.decl member) = false := by
      obtain ⟨other, member, new, shape⟩ := inductionHypothesis found
      exact ⟨other, List.mem_cons_of_mem _ member, fun known => new (grown known), shape⟩
    unfold strictFindings at found
    split at found
    · exact later (List.Subset.refl _) found
    next new =>
      split at found
      · exact later (List.subset_cons_self _ _) found
      next root rooted =>
        dsimp only at found
        split at found
        · exact later (List.subset_cons_self _ _) found
        · have grown : seen ⊆ pass.sealedSubclasses root ++ root :: element :: seen := by
            intro known member
            simp [member]
          split at found
          · exact later grown found
          next staying =>
            rcases List.mem_cons.mp found with rfl | found
            · refine ⟨element, List.mem_cons_self .., new, root, rooted, rfl, ?_⟩
              simpa only [List.all_eq_true, not_forall, Bool.not_eq_true, exists_prop] using staying
            · exact later grown found

theorem code_relaxedConflict? {id : DeclId} {others : List DeclId} {conflict : Conflict}
    (found : pass.relaxedConflict? id others = some conflict) :
    conflict.code = 1203 ∨ conflict.code = 1204 := by
  simp only [relaxedConflict?, Option.bind_eq_bind, Option.bind_eq_some_iff] at found
  rcases found with ⟨target, _, found⟩
  split at found
  · simp only [Option.pure_def, Option.some.injEq] at found
    subst found
    exact Or.inl rfl
  · simp only [Option.bind_eq_some_iff] at found
    rcases found with ⟨source, _, found⟩
    split at found
    · simp at found
    · simp only [Option.pure_def, Option.some.injEq] at found
      subst found
      exact Or.inr rfl

theorem mem_hierarchyFindings {findings : List Finding}
    (returned : pass.hierarchyFindings = .ok findings) {finding : Finding}
    (member : finding ∈ findings) :
    ∃ element ∈ pass.elements, finding.1 = .decl element ∧
      (1201 ≤ finding.2.code ∧ finding.2.code ≤ 1204) := by
  unfold hierarchyFindings at returned
  split at returned
  · obtain ⟨start, started, found⟩ := pass.mem_relaxedFindings returned member
    obtain ⟨keyed, -, conflicting⟩ := pass.mem_startFindings.mp found
    refine ⟨start.2, (pass.mem_walkStarts started).1, keyed, ?_⟩
    rcases pass.code_relaxedConflict? conflicting with code | code <;> omega
  · cases returned
    obtain ⟨element, listed, -, root, -, rfl, -⟩ := pass.mem_strictFindings member
    refine ⟨element, listed, rfl, ?_⟩
    rw [pass.code_strictFinding]
    split <;> decide

theorem mem_nameClashes {finding : Finding} (found : finding ∈ pass.nameClashes) :
    ∃ moved ∈ pass.walked, finding.1 = .decl moved ∧ finding.2.code = 1301 := by
  unfold nameClashes at found
  cases targeted : pass.targetContainer? with
  | none => simp [targeted] at found
  | some target =>
    simp only [targeted, List.mem_flatMap, List.mem_map] at found
    rcases found with ⟨moved, walked, ⟨other, scope⟩, _, rfl⟩
    exact ⟨moved, walked, rfl, rfl⟩

end Pass

end Relocation
