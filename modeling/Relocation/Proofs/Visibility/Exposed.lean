import Relocation.Proofs.Check.Finding
set_option autoImplicit false

/-!
External usages that are said to lose sight of what they refer to: which of them are worth a look,
and how the declaration that they refer to is judged.

A usage is judged from the declaration around it. Host code may see another visibility than the
declared one, today and after the move.
-/

namespace Relocation

theorem Declaration.hasVisibility_of_movable {decl : Declaration}
    (movable : decl.kind.isClassLike = true ∨ decl.kind.isCallable = true) :
    decl.hasVisibility = true := by
  unfold hasVisibility
  cases kind : decl.kind <;> simp [kind, DeclKind.isClassLike, DeclKind.isCallable] at movable ⊢

namespace DeclView

variable (p : Project) (id : DeclId) (container : Container) (visibility : Option Visibility)

def arrived : DeclView where
  decl := id
  visibility? := some (landedVisibility container (visibility.getD (p.decl id).visibility))
  container? := some container

variable {p id container visibility}

theorem moved?_eq_some_iff {view : DeclView} :
    moved? p id container visibility = some view ↔
      ((p.decl id).kind.isClassLike = true ∨ (p.decl id).kind.isCallable = true) ∧
        view = arrived p id container visibility := by
  unfold moved?
  by_cases movable : (p.decl id).kind.isClassLike = true ∨ (p.decl id).kind.isCallable = true
  · simp only [Bool.or_eq_true, movable, if_true, true_and, Option.some.injEq]
    exact eq_comm
  · simp [movable]

/-- Where it arrives, a declaration is seen by its own visibility alone, constructors included. -/
theorem isVisible_arrived
    (movable : (p.decl id).kind.isClassLike = true ∨ (p.decl id).kind.isCallable = true)
    (source : Container) :
    (arrived p id container visibility).isVisible p source =
      (arrived p id container visibility).isAllowed p source := by
  have itself : (arrived p id container visibility).decl = id := rfl
  have relocated : (arrived p id container visibility).isRelocated = true := rfl
  simp [isVisible, itself, Declaration.hasVisibility_of_movable movable, relocated]

end DeclView

namespace Pass

variable (pass : Pass)

def reportedUsages (external : List Usage) : List (Usage × DeclId) :=
  match pass.targetContainer? with
  | none => []
  | some target =>
    (pass.exposedUsages external).filter fun (usage, owner) =>
      pass.isLost target usage.referenced owner

def usageFinding (reported : Usage × DeclId) : Finding :=
  (.reference reported.1.reference, Message.inaccessible.conflict [
    pass.describeDecl reported.2, pass.describeDecl reported.1.referenced])

theorem lostUsages_eq (external : List Usage) :
    pass.lostUsages external = (pass.reportedUsages external).map pass.usageFinding := by
  unfold lostUsages reportedUsages
  cases pass.targetContainer? <;> rfl

def ReportsPair (external : List Usage) (referenced owner : DeclId) : Prop :=
  ∃ usage, (usage, owner) ∈ pass.reportedUsages external ∧ usage.referenced = referenced

/-- A usage in `owner` that is worth a look. -/
structure Eligible (usage : Usage) (owner : DeclId) : Prop where
  inCode : (pass.project.reference usage.reference).flags.nonCode = false
  staying : pass.isMoving (.reference usage.reference) = false
  owned : (pass.project.reference usage.reference).owner = some owner
  fromSource : (pass.project.decl usage.referenced).isHost = false
  restricted : (pass.project.decl usage.referenced).hasVisibility = true →
    (pass.project.decl usage.referenced).visibility = .pub → pass.isPublicTarget = false

/-- Whether a usage is passed over. `stays` is the answer to whether public declarations stay
public. -/
def passesOver (stays : Bool) (usage : Usage) : Bool :=
  let referenced := pass.project.decl usage.referenced
  (pass.project.reference usage.reference).flags.nonCode ||
    pass.isMoving (.reference usage.reference) || referenced.isHost ||
    (referenced.hasVisibility && referenced.visibility == .pub && stays)

def visibilityFor? (referenced owner : DeclId) : Option Visibility :=
  if (pass.project.decl owner).isHost then pass.hostVisibility? referenced else none

/-- `owner` sees `referenced` today, and would not see it in the container at the target. -/
def GoesOutOfSight (referenced owner : DeclId) : Prop :=
  ∃ target moved, pass.targetContainer? = some target ∧
    DeclView.moved? pass.project referenced target (pass.visibilityFor? referenced owner) =
      some moved ∧
    ((DeclView.current referenced).withVisibility (pass.visibilityFor? referenced owner)).isVisible
      pass.project (.decl owner) = true ∧
    moved.isVisible pass.project (.decl owner) = false

variable {pass}

theorem passesOver_eq_false_iff {stays : Bool} {usage : Usage} :
    pass.passesOver stays usage = false ↔
      (pass.project.reference usage.reference).flags.nonCode = false ∧
        pass.isMoving (.reference usage.reference) = false ∧
        (pass.project.decl usage.referenced).isHost = false ∧
        ((pass.project.decl usage.referenced).hasVisibility = true →
          (pass.project.decl usage.referenced).visibility = .pub → stays = false) := by
  simp only [passesOver, Bool.or_eq_false_iff, Bool.and_eq_false_iff, beq_eq_false_iff_ne,
    and_assoc]
  refine and_congr_right fun _ => and_congr_right fun _ => and_congr_right fun _ => ?_
  cases (pass.project.decl usage.referenced).hasVisibility
  · simp
  · simp [imp_iff_not_or]

theorem eligible_iff {usage : Usage} {owner : DeclId} :
    pass.Eligible usage owner ↔ pass.passesOver pass.isPublicTarget usage = false ∧
      (pass.project.reference usage.reference).owner = some owner := by
  rw [passesOver_eq_false_iff]
  constructor
  · rintro ⟨inCode, staying, owned, fromSource, restricted⟩
    exact ⟨⟨inCode, staying, fromSource, restricted⟩, owned⟩
  · rintro ⟨⟨inCode, staying, fromSource, restricted⟩, owned⟩
    exact ⟨inCode, staying, owned, fromSource, restricted⟩

theorem exposedOwner?_eq (usage : Usage) :
    pass.exposedOwner? usage = if pass.passesOver pass.isPublicTarget usage then none
      else (pass.project.reference usage.reference).owner := rfl

theorem exposedOwner?_eq_some_iff {usage : Usage} {owner : DeclId} :
    pass.exposedOwner? usage = some owner ↔ pass.Eligible usage owner := by
  rw [exposedOwner?_eq, eligible_iff]
  cases pass.passesOver pass.isPublicTarget usage <;> simp

theorem isLost_eq (target : Container) (referenced owner : DeclId) :
    pass.isLost target referenced owner =
      (DeclView.moved? pass.project referenced target (pass.visibilityFor? referenced owner)).any
        fun moved =>
          ((DeclView.current referenced).withVisibility
            (pass.visibilityFor? referenced owner)).isVisible pass.project (.decl owner) &&
          !moved.isVisible pass.project (.decl owner) := by
  simp only [isLost, visibilityFor?]
  split
  next nowhere => rw [nowhere, Option.any_none]
  next moved arrives => rw [arrives, Option.any_some]

theorem isLost_iff {target : Container} (targeted : pass.targetContainer? = some target)
    {referenced owner : DeclId} :
    pass.isLost target referenced owner = true ↔ pass.GoesOutOfSight referenced owner := by
  simp [isLost_eq, GoesOutOfSight, targeted, Option.any_eq_true]

theorem goesOutOfSight_iff {referenced owner : DeclId} :
    pass.GoesOutOfSight referenced owner ↔
      ((pass.project.decl referenced).kind.isClassLike = true ∨
          (pass.project.decl referenced).kind.isCallable = true) ∧
        ((DeclView.current referenced).withVisibility
          (pass.visibilityFor? referenced owner)).isVisible pass.project (.decl owner) = true ∧
        ∃ target, pass.targetContainer? = some target ∧
          (DeclView.arrived pass.project referenced target
            (pass.visibilityFor? referenced owner)).isAllowed pass.project (.decl owner) =
              false := by
  unfold GoesOutOfSight
  simp only [DeclView.moved?_eq_some_iff]
  constructor
  · rintro ⟨target, moved, targeted, ⟨movable, rfl⟩, seen, unseen⟩
    rw [DeclView.isVisible_arrived movable] at unseen
    exact ⟨movable, seen, target, targeted, unseen⟩
  · rintro ⟨movable, seen, target, targeted, unseen⟩
    rw [← DeclView.isVisible_arrived movable] at unseen
    exact ⟨target, _, targeted, ⟨movable, rfl⟩, seen, unseen⟩

/-- Only what can be looked at in another place gets out of sight. -/
theorem GoesOutOfSight.movable {referenced owner : DeclId}
    (lost : pass.GoesOutOfSight referenced owner) :
    (pass.project.decl referenced).kind ≠ .typeAlias ∧
      (pass.project.decl referenced).kind ≠ .typeParameter := by
  have movable := (goesOutOfSight_iff.mp lost).1
  constructor <;> intro kind <;> simp [kind, DeclKind.isClassLike, DeclKind.isCallable] at movable

end Pass

end Relocation
