import Relocation.Proofs.Project.Built
import Relocation.Proofs.Visibility.Memory
set_option autoImplicit false

/-!
One judgement for each pair of a declaration that is referred to and a declaration that refers to
it. The first usage worth a look is reported if the pair gets out of sight, and all others are not;
so the order of the usages makes no difference to which pairs are reported.
-/

namespace Relocation.Pass

variable {pass : Pass}

variable (pass) in
/-- The first of the usages of a declaration in `owner` that are worth a look. -/
def FirstOfPair (external : List Usage) (usage : Usage) (owner : DeclId) : Prop :=
  pass.Eligible usage owner ∧ ∃ before after, external = before ++ usage :: after ∧
    ∀ earlier ∈ before, earlier.referenced = usage.referenced → ¬ pass.Eligible earlier owner

theorem exists_firstOfPair {external : List Usage} {referenced owner : DeclId}
    (found : ∃ usage ∈ external, usage.referenced = referenced ∧ pass.Eligible usage owner) :
    ∃ usage, pass.FirstOfPair external usage owner ∧ usage.referenced = referenced := by
  classical
  obtain ⟨other, listed, ofPair⟩ := found
  let worth (usage : Usage) : Bool :=
    decide (usage.referenced = referenced ∧ pass.Eligible usage owner)
  obtain ⟨first, firstFound⟩ := Option.isSome_iff_exists.mp
    (List.find?_isSome.mpr ⟨other, listed, decide_eq_true ofPair⟩ :
      (external.find? worth).isSome = true)
  obtain ⟨chosen, before, after, split, none⟩ := List.find?_eq_some_iff_append.mp firstFound
  obtain ⟨rfl, eligible⟩ := of_decide_eq_true chosen
  refine ⟨first, ⟨eligible, before, after, split, fun earlier member same again => ?_⟩, rfl⟩
  simpa [worth, same, again] using none earlier member

theorem mem_reportedUsages {external : List Usage} {usage : Usage} {owner : DeclId} :
    (usage, owner) ∈ pass.reportedUsages external ↔
      pass.FirstOfPair external usage owner ∧ pass.GoesOutOfSight usage.referenced owner := by
  rw [reportedUsages_eq, mem_reportedAlong, FirstOfPair]
  simp only [reportedOf?_eq_some_iff, mem_memory, List.not_mem_nil, false_or, true_and]
  constructor
  · rintro ⟨before, after, split, notPassed, new, owned, lost⟩
    have eligible := eligible_iff.mpr ⟨notPassed, owned⟩
    refine ⟨⟨eligible, before, after, split, fun earlier member same again => ?_⟩, lost⟩
    refine new ⟨earlier, member, (eligible_iff.mp again).1, ?_⟩
    rw [pairOf, pairOf, same, contextOf_of_owned again.owned, contextOf_of_owned owned]
  · rintro ⟨⟨eligible, before, after, split, first⟩, lost⟩
    obtain ⟨notPassed, owned⟩ := eligible_iff.mp eligible
    refine ⟨before, after, split, notPassed, ?_, owned, lost⟩
    rintro ⟨earlier, member, looked, same⟩
    have context : pass.contextOf earlier = .decl owner :=
      (congrArg Prod.snd same).trans (contextOf_of_owned owned)
    exact first earlier member (congrArg Prod.fst same)
      (eligible_iff.mpr ⟨looked, owned_of_contextOf context⟩)

theorem reportsPair_iff {external : List Usage} {referenced owner : DeclId} :
    pass.ReportsPair external referenced owner ↔
      (∃ usage ∈ external, usage.referenced = referenced ∧ pass.Eligible usage owner) ∧
        pass.GoesOutOfSight referenced owner := by
  unfold ReportsPair
  simp only [mem_reportedUsages]
  constructor
  · rintro ⟨usage, ⟨⟨eligible, before, after, rfl, -⟩, lost⟩, rfl⟩
    exact ⟨⟨usage, by simp, rfl, eligible⟩, lost⟩
  · rintro ⟨found, lost⟩
    obtain ⟨usage, first, rfl⟩ := exists_firstOfPair found
    exact ⟨usage, ⟨first, lost⟩, rfl⟩

/-- The findings are about the first usage worth a look of each pair that gets out of sight, in the
order of the usages, and about no other usage. In which order the usages come makes no difference to
the pairs. -/
theorem usages_reported_by_pair (pass : Pass) (external : List Usage) :
    pass.lostUsages external = (pass.reportedUsages external).map pass.usageFinding ∧
    ((pass.reportedUsages external).map Prod.fst).Sublist external ∧
    ((pass.reportedUsages external).map fun reported =>
      (reported.1.referenced, reported.2)).Nodup ∧
    (∀ usage owner, (usage, owner) ∈ pass.reportedUsages external ↔
      pass.FirstOfPair external usage owner ∧ pass.GoesOutOfSight usage.referenced owner) ∧
    (∀ referenced owner, pass.GoesOutOfSight referenced owner →
      pass.targetContainer?.isSome = true ∧
        (pass.project.decl referenced).kind ≠ .typeAlias ∧
        (pass.project.decl referenced).kind ≠ .typeParameter) ∧
    ∀ others, external.Perm others → ∀ referenced owner,
      pass.ReportsPair external referenced owner ↔ pass.ReportsPair others referenced owner := by
  refine ⟨pass.lostUsages_eq external, ?_, ?_, fun usage owner => mem_reportedUsages, ?_, ?_⟩
  · rw [reportedUsages_eq]
    exact sublist_reportedAlong external
  · have distinct : ((pass.reportedUsages external).map fun reported =>
        pass.pairOf reported.1).Nodup := by
      rw [reportedUsages_eq]
      exact nodup_reportedAlong external
    refine List.Nodup.of_map (fun pair => (pair.1, Element.decl pair.2)) ?_
    rw [List.map_map]
    refine (List.map_congr_left fun reported found => ?_) ▸ distinct
    obtain ⟨⟨eligible, -⟩, -⟩ := mem_reportedUsages.mp found
    simp [pairOf, contextOf_of_owned eligible.owned]
  · rintro referenced owner lost
    obtain ⟨target, -, targeted, -⟩ := id lost
    exact ⟨Option.isSome_of_mem targeted, lost.movable⟩
  · intro others same referenced owner
    rw [reportsPair_iff, reportsPair_iff]
    simp only [same.mem_iff]

/-- In one file, `user` names the private function `whisper` in a comment and calls it twice; in
between, `other` calls it. -/
def whispersCalls : List BuilderCall := [
  .module "core" .jvm, .directory "a" (.module ⟨0⟩ false) ⟨"a"⟩,
  .file ⟨0⟩ "Whisper.kt" none, .file ⟨0⟩ "Quiet.kt" none,
  .decl { name := "whisper", kind := .function, parent := .file ⟨0⟩, visibility := .priv },
  .decl { name := "user", kind := .function, parent := .file ⟨0⟩ },
  .decl { name := "other", kind := .function, parent := .file ⟨0⟩ },
  .referenceFrom ⟨1⟩ ⟨0⟩ { nonCode := true }, .referenceFrom ⟨1⟩ ⟨0⟩ {},
  .referenceFrom ⟨2⟩ ⟨0⟩ {}, .referenceFrom ⟨1⟩ ⟨0⟩ {}]

def whispers : Project := (Project.run? {} whispersCalls).getD {}

def moveWhisper : Pass := .ofDecls whispers whispers.services {} (.file ⟨1⟩) [⟨0⟩]

def whisperUsages : List Usage := whispers.collectUsages whispers.services [.decl ⟨0⟩]

/-- The first call of `user` is reported and the comment is not. Seen from the end it is the second
call, of the same pair. -/
theorem reported_by_pair_moveWhisper :
    whisperUsages.Perm whisperUsages.reverse ∧
    moveWhisper.reportedUsages whisperUsages =
      [(⟨⟨1⟩, ⟨0⟩, false⟩, ⟨1⟩), (⟨⟨2⟩, ⟨0⟩, false⟩, ⟨2⟩)] ∧
    moveWhisper.reportedUsages whisperUsages.reverse =
      [(⟨⟨3⟩, ⟨0⟩, false⟩, ⟨1⟩), (⟨⟨2⟩, ⟨0⟩, false⟩, ⟨2⟩)] ∧
    moveWhisper.FirstOfPair whisperUsages ⟨⟨1⟩, ⟨0⟩, false⟩ ⟨1⟩ ∧
    moveWhisper.GoesOutOfSight ⟨0⟩ ⟨1⟩ ∧
    ∀ referenced owner, moveWhisper.ReportsPair whisperUsages referenced owner ↔
      moveWhisper.ReportsPair whisperUsages.reverse referenced owner := by
  have reported : moveWhisper.reportedUsages whisperUsages =
      [(⟨⟨1⟩, ⟨0⟩, false⟩, ⟨1⟩), (⟨⟨2⟩, ⟨0⟩, false⟩, ⟨2⟩)] := by decide +kernel
  have backwards : whisperUsages.Perm whisperUsages.reverse := (List.reverse_perm _).symm
  obtain ⟨-, -, -, each, -, ordered⟩ := usages_reported_by_pair moveWhisper whisperUsages
  obtain ⟨first, lost⟩ := (each ⟨⟨1⟩, ⟨0⟩, false⟩ ⟨1⟩).mp (by simp [reported])
  exact ⟨backwards, reported, by decide +kernel, first, lost, ordered _ backwards⟩

end Relocation.Pass
