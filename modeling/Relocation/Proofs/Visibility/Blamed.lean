import Relocation.Proofs.Check.Finding
import Relocation.Proofs.Project.Built
set_option autoImplicit false

/-!
What the detector of references in moved code blames on the move. A reference to anything but a
constructor is blamed only if its target is in sight today. A constructor is judged twice, by itself
and by its class, and each judgement lets pass what it finds out of sight by itself: where the
class is in sight and gets out of it, the reference is blamed even if the constructor was hidden.
-/

namespace Relocation

/-- What is looked at to judge a reference to `named`: the declaration itself, and the class of a
constructor. -/
def Project.Judged (p : Project) (named judged : DeclId) : Prop :=
  judged = named ∨ (p.decl named).kind = .constructor ∧ (p.decl named).parent = .decl judged

/-- To refer to a declaration where it is, it has to be allowed, and the class of a constructor with
it. -/
theorem DeclView.isVisible_current_iff {p : Project} {id : DeclId} {source : Container} :
    (current id).isVisible p source = true ↔
      ((p.decl id).hasVisibility = true → (current id).isAllowed p source = true ∧
        ∀ owner, (p.decl id).kind = .constructor → (p.decl id).parent = .decl owner →
          (current owner).isAllowed p source = true) := by
  have isConstructor : (current id).isConstructor p = ((p.decl id).kind == .constructor) := rfl
  have stays : (current id).isRelocated = false := rfl
  have itself : (current id).decl = id := rfl
  unfold isVisible
  rw [isConstructor, stays, itself]
  by_cases looked : (p.decl id).hasVisibility = true
  · by_cases constructs : (p.decl id).kind = .constructor
    · cases parent : (p.decl id).parent <;> simp [looked, constructs]
    · simp [looked, constructs]
  · simp [looked]

namespace Pass

variable {pass : Pass}

/-- What does not stay visible is not public, and in sight today. Inheritance after the move decides
about protected declarations, and the view from the target about all others. -/
theorem staysVisible_eq_false_iff {target : Container} {judged : DeclId} {id : RefId} :
    pass.staysVisible target judged id = false ↔
      (pass.project.decl judged).visibility.normalize ≠ .pub ∧
        ∃ referrer, pass.referrer? id = some referrer ∧
          (DeclView.current judged).isVisible pass.project (.decl referrer) = true ∧
          (if (pass.project.decl judged).visibility.normalize = .prot then
              pass.isProtectedAfter target judged referrer
            else (DeclView.current judged).isVisible pass.project target) = false := by
  unfold staysVisible
  dsimp only
  cases referring : pass.referrer? id with
  | none => simp
  | some referrer =>
    by_cases isPublic : (pass.project.decl judged).visibility.normalize = .pub
    · simp [isPublic]
    · by_cases seen : (DeclView.current judged).isVisible pass.project (.decl referrer) = true
      · simp [isPublic, seen]
      · simp [isPublic, seen]

/-- A reference that is blamed leads out of the move, to something that does not stay visible. -/
theorem judged_of_mem_lostReferences {finding : Finding} (found : finding ∈ pass.lostReferences) :
    ∃ target, pass.targetContainer? = some target ∧ ∃ moved ∈ pass.walked,
      ∃ id ∈ pass.project.referencesWithin moved, finding.1 = .reference id ∧
        ∃ named, (pass.project.reference id).target = some named ∧
          pass.isMoving (.decl named) = false ∧
          (pass.project.decl named).hasVisibility = true ∧
          ∃ judged, pass.project.Judged named judged ∧
            pass.staysVisible target judged id = false := by
  obtain ⟨target, targeted, moved, walked, id, within, lost⟩ :=
    pass.mem_lostReferences_iff.mp found
  obtain ⟨named, resolved, staying, looked, hidden, rfl⟩ :=
    pass.lostReference?_eq_some_iff.mp lost
  refine ⟨target, targeted, moved, walked, id, within, rfl, named, resolved, staying, looked, ?_⟩
  by_cases itself : pass.staysVisible target named id = true
  · by_contra nothing
    have accessible : pass.staysAccessible target named id = true := by
      refine pass.staysAccessible_iff.mpr ⟨itself, fun owner constructs parent => ?_⟩
      by_contra lostOwner
      exact nothing ⟨owner, Or.inr ⟨constructs, parent⟩, Bool.eq_false_iff.mpr lostOwner⟩
    rw [accessible] at hidden
    cases hidden
  · exact ⟨named, Or.inl rfl, Bool.eq_false_iff.mpr itself⟩

/-- A constructor that is hidden from `referrer` today, by its own visibility or because it belongs
to a type parameter, while its class is in sight and gets lost. -/
structure LosesClass (pass : Pass) (id : RefId) (referrer named owner : DeclId) : Prop where
  constructs : (pass.project.decl named).kind = .constructor
  parent : (pass.project.decl named).parent = .decl owner
  hidden : (DeclView.current named).isVisible pass.project (.decl referrer) = false
  own : (DeclView.current named).isAllowed pass.project (.decl referrer) = false ∨
    (pass.project.decl owner).hasVisibility = false
  seen : (DeclView.current owner).isVisible pass.project (.decl referrer) = true
  lost : ∃ target, pass.targetContainer? = some target ∧ pass.staysVisible target owner id = false

/-- Every reference that is blamed has its target in sight today, from the declaration that the
reference is judged from, unless the target is a hidden constructor that loses its class. -/
theorem blamed_references_in_sight {finding : Finding} (found : finding ∈ pass.lostReferences) :
    ∃ id referrer named, finding.1 = .reference id ∧ pass.referrer? id = some referrer ∧
      (pass.project.reference id).target = some named ∧
      ((DeclView.current named).isVisible pass.project (.decl referrer) = true ∨
        ∃ owner, pass.LosesClass id referrer named owner) := by
  obtain ⟨target, targeted, _, -, id, -, keyed, named, resolved, -, -, judged, isJudged, lost⟩ :=
    judged_of_mem_lostReferences found
  obtain ⟨-, referrer, referring, seen, -⟩ := staysVisible_eq_false_iff.mp lost
  refine ⟨id, referrer, named, keyed, referring, resolved, ?_⟩
  rcases isJudged with rfl | ⟨constructs, parent⟩
  · exact Or.inl seen
  · refine or_iff_not_imp_left.mpr fun unseen => ⟨judged, ?_⟩
    refine ⟨constructs, parent, Bool.eq_false_iff.mpr unseen, ?_, seen, target, targeted, lost⟩
    by_contra allowed
    rw [not_or, Bool.not_eq_false, Bool.not_eq_false] at allowed
    refine unseen (DeclView.isVisible_current_iff.mpr fun _ => ⟨allowed.1, fun owner _ same => ?_⟩)
    cases parent.symm.trans same
    exact (DeclView.isVisible_current_iff.mp seen allowed.2).1

/-- In one file, `open` refers to the private class `Vault` and to its private constructor. -/
def vaultCalls : List BuilderCall := [
  .module "core" .jvm, .directory "a" (.module ⟨0⟩ false) ⟨"a"⟩,
  .file ⟨0⟩ "Vault.kt" none, .file ⟨0⟩ "Open.kt" none,
  .decl { name := "Vault", kind := .plainClass, parent := .file ⟨0⟩, visibility := .priv },
  .decl { name := "Vault", kind := .constructor, parent := .decl ⟨0⟩, visibility := .priv },
  .decl { name := "open", kind := .function, parent := .file ⟨0⟩ },
  .referenceFrom ⟨2⟩ ⟨0⟩ {}, .referenceFrom ⟨2⟩ ⟨1⟩ {}]

def vault : Project := (Project.run? {} vaultCalls).getD {}

def moveOpen : Pass := .ofDecls vault vault.services {} (.file ⟨1⟩) [⟨2⟩]

def vaultLost : Finding :=
  (.reference ⟨0⟩, ⟨1101, .error,
    "Function open() uses class Vault which will be inaccessible after move"⟩)

/-- The class is in sight of `open` until it moves. -/
theorem blamed_in_sight_moveOpen :
    vaultLost ∈ moveOpen.lostReferences ∧
    ∃ id referrer named, vaultLost.1 = .reference id ∧ moveOpen.referrer? id = some referrer ∧
      (moveOpen.project.reference id).target = some named ∧
      ((DeclView.current named).isVisible moveOpen.project (.decl referrer) = true ∨
        ∃ owner, moveOpen.LosesClass id referrer named owner) := by
  have found : vaultLost ∈ moveOpen.lostReferences := by decide +kernel
  exact ⟨found, blamed_references_in_sight found⟩

/-- The constructor never was, and the reference to it is blamed nevertheless. -/
theorem hidden_constructor_blamed :
    ∃ finding ∈ moveOpen.lostReferences, ∃ id referrer named, finding.1 = .reference id ∧
      moveOpen.referrer? id = some referrer ∧
      (moveOpen.project.reference id).target = some named ∧
      (DeclView.current named).isVisible moveOpen.project (.decl referrer) = false := by
  have found : (.reference ⟨1⟩, ⟨1101, .error,
      "Function open() uses constructor Vault() which will be inaccessible after move"⟩) ∈
      moveOpen.lostReferences := by decide +kernel
  exact ⟨_, found, ⟨1⟩, ⟨2⟩, ⟨1⟩, rfl, by decide +kernel, by decide +kernel, by decide +kernel⟩

end Pass

end Relocation
