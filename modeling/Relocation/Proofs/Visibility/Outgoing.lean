import Relocation.Proofs.Check.Run
import Relocation.Proofs.Project.Built
import Relocation.Proofs.Visibility.Reparented
set_option autoImplicit false

/-!
References that leave a moved declaration, for private and internal targets.

A pass does not build the moved project. It asks whether the target can be seen from the container
that the declaration moves to, and not from the place inside the declaration where the reference
is. For these targets both are the same, so what the pass reports is what would be lost.
-/

namespace Relocation

def Target.ofParent : Parent → Target
  | .file home => .file home
  | .decl owner => .decl owner

theorem Target.container?_ofParent (p : Project) (place : Parent) :
    (Target.ofParent place).container? p = some (p.containerOf place) := by
  cases place <;> rfl

/-- A declaration is visible today, and is not once `moved` hangs below `place`. -/
def Project.LosesSight (p : Project) (moved : DeclId) (place : Parent) (site named : DeclId) : Prop :=
  (DeclView.current named).isVisible p (.decl site) = true ∧
    (DeclView.current named).isVisible (p.reparent moved place) (.decl site) = false

namespace Pass

/-- A pass that moves one declaration below a parent that is not inside it. -/
structure MovesOne (pass : Pass) (moved : DeclId) (place : Parent) : Prop where
  elements : pass.elements = [moved]
  moving : pass.moving = [.decl moved]
  looked : moved ∉ pass.skipped
  target : pass.target = .ofParent place
  declared : moved ∈ pass.project.declIds
  away : ∀ owner, place = .decl owner →
    pass.project.isAncestor (.decl moved) (.decl owner) = false

variable {pass : Pass}

theorem not_isMoving_of_mem_lostUsages {external : List Usage} {finding : Finding}
    (found : finding ∈ pass.lostUsages external) {id : RefId}
    (keyed : finding.1 = .reference id) : pass.isMoving (.reference id) = false := by
  obtain ⟨usage, -, exposed, same, -⟩ := pass.exposed_of_mem_lostUsages found
  rw [keyed] at same
  cases same
  unfold exposedOwner? at exposed
  dsimp only at exposed
  split at exposed
  · cases exposed
  next kept =>
    simp only [Bool.or_eq_true, not_or, Bool.not_eq_true] at kept
    exact kept.1.1.2

theorem staysVisible_iff {target : Container} {named referrer : DeclId} {id : RefId}
    (referring : pass.referrer? id = some referrer)
    (restricted : (pass.project.decl named).visibility = .priv ∨
      (pass.project.decl named).visibility = .internal) :
    pass.staysVisible target named id = false ↔
      (DeclView.current named).isVisible pass.project (.decl referrer) = true ∧
        (DeclView.current named).isVisible pass.project target = false := by
  unfold staysVisible
  rcases restricted with visibility | visibility
  · simp [visibility, Visibility.normalize, referring]
  · simp [visibility, Visibility.normalize, referring]

theorem staysAccessible_eq {target : Container} {named : DeclId} {id : RefId}
    (notConstructor : (pass.project.decl named).kind ≠ .constructor) :
    pass.staysAccessible target named id = pass.staysVisible target named id := by
  rw [Bool.eq_iff_iff, staysAccessible_iff]
  exact and_iff_left fun _ isConstructor => absurd isConstructor notConstructor

theorem liesIn_referrer (lists : pass.project.ListsChildren) {id : RefId} {owner : DeclId}
    (owned : (pass.project.reference id).owner = some owner) :
    ∃ referrer, pass.referrer? id = some referrer ∧
      pass.project.LiesIn (.decl referrer) (.decl owner) := by
  unfold referrer?
  simp only [owned, Option.map_some, Option.some.injEq, exists_eq_left']
  split
  · cases found : pass.project.primaryConstructor? owner with
    | none => exact Relation.ReflTransGen.refl
    | some constructor =>
      have listed := (List.mem_filter.mp (List.mem_of_find?_eq_some found)).1
      exact lists.liesIn_of_mem_members listed
  · exact Relation.ReflTransGen.refl

section MovesOne

variable {moved : DeclId} {place : Parent} (one : pass.MovesOne moved place)
include one

theorem MovesOne.walked : pass.walked = [moved] := by
  simp [Pass.walked, one.elements, one.looked]

theorem MovesOne.isMoving (element : Element) :
    pass.isMoving element = pass.project.isAncestor (.decl moved) element := by
  simp [Pass.isMoving, Project.isInside, one.moving]

theorem MovesOne.targetContainer? :
    pass.targetContainer? = some (pass.project.containerOf place) := by
  rw [Pass.targetContainer?, one.target, Target.container?_ofParent]

theorem MovesOne.exists_lostReferences_iff {id : RefId}
    (within : id ∈ pass.project.referencesWithin moved) {named referrer : DeclId}
    (resolved : (pass.project.reference id).target = some named)
    (referring : pass.referrer? id = some referrer)
    (apart : pass.project.isAncestor (.decl moved) (.decl named) = false)
    (notConstructor : (pass.project.decl named).kind ≠ .constructor)
    (restricted : (pass.project.decl named).visibility = .priv ∨
      (pass.project.decl named).visibility = .internal) :
    (∃ conflict, (.reference id, conflict) ∈ pass.lostReferences) ↔
      (DeclView.current named).isVisible pass.project (.decl referrer) = true ∧
        (DeclView.current named).isVisible pass.project (pass.project.containerOf place) =
          false := by
  have judged : pass.staysAccessible (pass.project.containerOf place) named id = false ↔
      (DeclView.current named).isVisible pass.project (.decl referrer) = true ∧
        (DeclView.current named).isVisible pass.project (pass.project.containerOf place) =
          false := by
    rw [staysAccessible_eq notConstructor, staysVisible_iff referring restricted]
  constructor
  · rintro ⟨conflict, found⟩
    obtain ⟨target, targeted, other, -, id', -, lost⟩ := pass.mem_lostReferences_iff.mp found
    obtain ⟨referenced, resolved', -, -, hidden, same⟩ :=
      pass.lostReference?_eq_some_iff.mp lost
    cases same
    rw [one.targetContainer?] at targeted
    cases targeted
    rw [resolved] at resolved'
    cases resolved'
    exact judged.mp hidden
  · rintro ⟨seen, hidden⟩
    have looked : (pass.project.decl named).hasVisibility = true := by
      by_contra unlooked
      simp [DeclView.isVisible, DeclView.current, unlooked] at hidden
    refine ⟨_, pass.mem_lostReferences_iff.mpr ⟨_, one.targetContainer?, moved, ?_, id, within,
      pass.lostReference?_eq_some_iff.mpr ⟨named, resolved, ?_, looked, judged.mpr ⟨seen, hidden⟩,
        rfl⟩⟩⟩
    · simp [one.walked]
    · rw [one.isMoving, apart]

/-- Only the detector of references reports references that move. -/
theorem MovesOne.exists_lostSight_iff {id : RefId}
    (within : id ∈ pass.project.referencesWithin moved) (external : List Usage) :
    (∃ finding ∈ pass.lostUsages external ++ pass.lostReferences,
        finding.1 = .reference id ∧ finding.2.code = 1101) ↔
      ∃ conflict, (.reference id, conflict) ∈ pass.lostReferences := by
  constructor
  · rintro ⟨⟨element, conflict⟩, found, rfl, -⟩
    rcases List.mem_append.mp found with lost | lost
    · have staying := not_isMoving_of_mem_lostUsages lost rfl
      rw [one.isMoving] at staying
      rw [(List.mem_filter.mp within).2] at staying
      cases staying
    · exact ⟨conflict, lost⟩
  · rintro ⟨conflict, lost⟩
    obtain ⟨_, -, _, -, -, code⟩ := pass.mem_lostReferences lost
    exact ⟨_, List.mem_append_right _ lost, rfl, code⟩

theorem MovesOne.outside {count : Nat} (nested : pass.project.NestedBelow (count + 1))
    (short : count < chainLimit) :
    ∀ owner, place = .decl owner → pass.project.Outside moved owner := by
  intro owner into
  exact Project.outside_of_isAncestor nested short (one.away owner into)

end MovesOne

/-- A reference inside a moved declaration that resolves to a private or internal declaration
outside is reported exactly if its target is visible today and is not any more once the declaration
hangs below its new parent: by the detectors, whatever the usages, and so by every run. -/
theorem outgoing_reported_iff_losesSight {pass : Pass} (built : pass.project.Built)
    (nested : pass.project.NestedBelow 100) {moved : DeclId} {place : Parent}
    (one : pass.MovesOne moved place) {id : RefId}
    (within : id ∈ pass.project.referencesWithin moved) {owner named : DeclId}
    (owned : (pass.project.reference id).owner = some owner)
    (resolved : (pass.project.reference id).target = some named)
    (apart : pass.project.isAncestor (.decl moved) (.decl named) = false)
    (notConstructor : (pass.project.decl named).kind ≠ .constructor)
    (restricted : (pass.project.decl named).visibility = .priv ∨
      (pass.project.decl named).visibility = .internal) :
    ∃ referrer, pass.referrer? id = some referrer ∧
      (∀ external, (∃ finding ∈ pass.lostUsages external ++ pass.lostReferences,
          finding.1 = .reference id ∧ finding.2.code = 1101) ↔
        pass.project.LosesSight moved place referrer named) ∧
      ∀ before after, pass.check before = .ok after →
        ((∃ finding ∈ after.report.findings,
            finding.1 = .reference id ∧ finding.2.code = 1101) ↔
          (∃ finding ∈ before.report.findings,
            finding.1 = .reference id ∧ finding.2.code = 1101) ∨
          pass.project.LosesSight moved place referrer named) := by
  obtain ⟨referrer, referring, around⟩ := liesIn_referrer built.listsChildren owned
  refine ⟨referrer, referring, ?_⟩
  have inside : pass.project.LiesIn (.decl referrer) (.decl moved) := by
    have enclosed := Project.liesIn_of_liesWithin (List.mem_filter.mp within).2
    rcases enclosed.cases_around with same | ⟨next, outwards, further⟩
    · cases same
    · have next_eq : next = .decl owner := by simpa [Project.around?, owned] using outwards.symm
      exact around.trans (next_eq ▸ further)
  have loses : pass.project.LosesSight moved place referrer named ↔
      ∃ conflict, (.reference id, conflict) ∈ pass.lostReferences := by
    have outside := Project.outside_of_isAncestor nested (by decide) apart
    rw [one.exists_lostReferences_iff within resolved referring apart notConstructor restricted,
      Project.LosesSight, DeclView.isVisible_reparent place nested (by decide) one.declared
        (one.outside nested (by decide)) inside outside notConstructor restricted]
  refine ⟨fun external => ?_, fun before after returned => ?_⟩
  · rw [one.exists_lostSight_iff within, loses]
  · rw [loses, ← one.exists_lostSight_iff within (pass.externalLeft before.external)]
    constructor
    · rintro ⟨finding, member, keyed, code⟩
      rcases (mem_findings_of_check_lostSight returned code).mp member with early | lost
      · exact Or.inl ⟨finding, early, keyed, code⟩
      · exact Or.inr ⟨finding, List.mem_append.mpr lost, keyed, code⟩
    · rintro (⟨finding, early, keyed, code⟩ | ⟨finding, lost, keyed, code⟩)
      · have member := (mem_findings_of_check_lostSight returned code).mpr (Or.inl early)
        exact ⟨finding, member, keyed, code⟩
      · have member := (mem_findings_of_check_lostSight returned code).mpr
          (Or.inr (List.mem_append.mp lost))
        exact ⟨finding, member, keyed, code⟩

/-- In one file, `Shape` inherits from the private class `Base`, and has a primary constructor. -/
def galleryCalls : List BuilderCall := [
  .module "core" .jvm,
  .directory "core/a" (.module ⟨0⟩ false) ⟨"a"⟩, .directory "core/b" (.module ⟨0⟩ false) ⟨"b"⟩,
  .file ⟨0⟩ "Base.kt" none, .file ⟨1⟩ "Other.kt" none,
  .decl { name := "Base", kind := .plainClass, parent := .file ⟨0⟩, visibility := .priv },
  .internedType (.applied ⟨0⟩ [] false),
  .decl { name := "Shape", kind := .plainClass, parent := .file ⟨0⟩, supertypes := [⟨2⟩] },
  .decl
    { name := "Shape", kind := .constructor, parent := .decl ⟨1⟩,
      flags := { primaryConstructor := true } },
  .referenceFrom ⟨1⟩ ⟨0⟩ { inSupertypeList := true }]

def gallery : Project := (Project.run? {} galleryCalls).getD {}

def moveShape : Pass := .ofDecls gallery gallery.services {} (.file ⟨1⟩) [⟨1⟩]

theorem movesOne_moveShape : moveShape.MovesOne ⟨1⟩ (.file ⟨1⟩) where
  elements := rfl
  moving := rfl
  looked := by decide
  target := rfl
  declared := by decide +kernel
  away := by
    intro owner into
    cases into

/-- The primary constructor of `Shape` loses sight of `Base`. -/
theorem outgoing_reported_moveShape :
    (gallery.Built ∧ gallery.NestedBelow 100 ∧ moveShape.MovesOne ⟨1⟩ (.file ⟨1⟩) ∧
      ⟨0⟩ ∈ gallery.referencesWithin ⟨1⟩ ∧ (gallery.reference ⟨0⟩).owner = some ⟨1⟩ ∧
      (gallery.reference ⟨0⟩).target = some ⟨0⟩ ∧
      gallery.isAncestor (.decl ⟨1⟩) (.decl ⟨0⟩) = false ∧
      (gallery.decl ⟨0⟩).kind ≠ .constructor ∧ (gallery.decl ⟨0⟩).visibility = .priv) ∧
    moveShape.referrer? ⟨0⟩ = some ⟨2⟩ ∧ gallery.LosesSight ⟨1⟩ (.file ⟨1⟩) ⟨2⟩ ⟨0⟩ ∧
    ∃ referrer, moveShape.referrer? ⟨0⟩ = some referrer ∧
      (∀ external, (∃ finding ∈ moveShape.lostUsages external ++ moveShape.lostReferences,
          finding.1 = .reference ⟨0⟩ ∧ finding.2.code = 1101) ↔
        gallery.LosesSight ⟨1⟩ (.file ⟨1⟩) referrer ⟨0⟩) ∧
      ∀ before after, moveShape.check before = .ok after →
        ((∃ finding ∈ after.report.findings,
            finding.1 = .reference ⟨0⟩ ∧ finding.2.code = 1101) ↔
          (∃ finding ∈ before.report.findings,
            finding.1 = .reference ⟨0⟩ ∧ finding.2.code = 1101) ∨
          gallery.LosesSight ⟨1⟩ (.file ⟨1⟩) referrer ⟨0⟩) := by
  have built : gallery.Built := ⟨galleryCalls, rfl⟩
  have nested : gallery.NestedBelow 100 := by decide +kernel
  have within : ⟨0⟩ ∈ gallery.referencesWithin ⟨1⟩ := by decide +kernel
  have apart : gallery.isAncestor (.decl ⟨1⟩) (.decl ⟨0⟩) = false := by decide +kernel
  have notConstructor : (gallery.decl ⟨0⟩).kind ≠ .constructor := by decide +kernel
  have restricted : (gallery.decl ⟨0⟩).visibility = .priv := by decide +kernel
  refine ⟨⟨built, nested, movesOne_moveShape, within, rfl, rfl, apart, notConstructor, restricted⟩,
    by decide +kernel, ⟨by decide +kernel, by decide +kernel⟩, ?_⟩
  exact outgoing_reported_iff_losesSight built nested movesOne_moveShape within rfl rfl apart
    notConstructor (Or.inl restricted)

end Pass

end Relocation
