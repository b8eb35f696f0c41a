import Relocation.Proofs.Project.Built
import Relocation.Proofs.Visibility.Memory
set_option autoImplicit false

/-!
Public declarations are never said to get out of sight, and at targets where they stay public their
usages are passed over without a look. Main statement: to look at them nevertheless would make no
difference to the report. Their pairs are then remembered, but pairs of other declarations are
remembered as before, and pairs of public ones are never reported.
-/

namespace Relocation

namespace Pass

variable {pass : Pass}

theorem hostVisibility?_of_pub {id : DeclId} (isPublic : (pass.project.decl id).visibility = .pub) :
    pass.hostVisibility? id = none := by
  simp [hostVisibility?, isPublic]

theorem visibilityFor?_of_pub {id owner : DeclId}
    (isPublic : (pass.project.decl id).visibility = .pub) :
    pass.visibilityFor? id owner = none := by
  rw [visibilityFor?, hostVisibility?_of_pub isPublic, ite_self]

/-- Wherever it arrives, a public declaration stays in sight. -/
theorem GoesOutOfSight.not_public {referenced owner : DeclId}
    (lost : pass.GoesOutOfSight referenced owner) :
    (pass.project.decl referenced).visibility ≠ .pub := by
  intro isPublic
  obtain ⟨-, -, target, -, hidden⟩ := goesOutOfSight_iff.mp lost
  have stays : (DeclView.arrived pass.project referenced target
      (pass.visibilityFor? referenced owner)).visibility pass.project = .pub := by
    simp [DeclView.visibility, DeclView.arrived, DeclView.landedVisibility,
      visibilityFor?_of_pub isPublic, isPublic]
  simp [DeclView.isAllowed, stays] at hidden

variable {stays other : Bool} {checked others : List (DeclId × Element)} {usage : Usage}

variable (pass) in
/-- Two memories that differ in public declarations only. -/
def Agree (checked others : List (DeclId × Element)) : Prop :=
  ∀ pair : DeclId × Element, (pass.project.decl pair.1).visibility ≠ .pub →
    (pair ∈ checked ↔ pair ∈ others)

/-- The answer matters to public declarations only. -/
theorem passesOver_of_not_public
    (notPublic : (pass.project.decl usage.referenced).visibility ≠ .pub) :
    pass.passesOver stays usage = pass.passesOver other usage := by
  have differs : ((pass.project.decl usage.referenced).visibility == .pub) = false := by
    simpa using notPublic
  simp only [passesOver, differs, Bool.and_false, Bool.false_and]

theorem Agree.remember (agree : pass.Agree checked others) (usage : Usage) :
    pass.Agree (pass.remember stays checked usage) (pass.remember other others usage) := by
  intro pair notPublic
  rw [mem_remember, mem_remember, agree pair notPublic]
  refine or_congr_right (and_congr_left fun same => ?_)
  subst same
  rw [passesOver_of_not_public notPublic]

theorem Agree.reportedOf? (agree : pass.Agree checked others) (usage : Usage) :
    pass.reportedOf? stays checked usage = pass.reportedOf? other others usage := by
  refine Option.ext fun reported => ?_
  rw [reportedOf?_eq_some_iff, reportedOf?_eq_some_iff]
  refine and_congr_right fun _ => ?_
  by_cases notPublic : (pass.project.decl usage.referenced).visibility ≠ .pub
  · rw [passesOver_of_not_public notPublic, agree (pass.pairOf usage) notPublic]
  · -- Neither run reports a usage of a public declaration.
    refine iff_of_false ?_ ?_ <;> exact fun ⟨_, _, _, lost⟩ => notPublic lost.not_public

theorem Agree.reportedAlong (agree : pass.Agree checked others) (usages : List Usage) :
    pass.reportedAlong stays checked usages = pass.reportedAlong other others usages := by
  induction usages generalizing checked others with
  | nil => rfl
  | cons usage rest inductionHypothesis =>
    rw [Pass.reportedAlong, Pass.reportedAlong, agree.reportedOf? usage,
      inductionHypothesis (agree.remember usage)]

/-- No usage of a public declaration is reported. A run along the usages adds the same to a report
whatever it is told about public declarations: that they stay public, as the detector has it for its
target, or that they do not, so that none is passed over. -/
theorem public_usages_passed_over (pass : Pass) (external : List Usage) :
    pass.lostUsages external = (pass.reportedUsages external).map pass.usageFinding ∧
    (∀ reported ∈ pass.reportedUsages external,
      (pass.project.decl reported.1.referenced).visibility ≠ .pub) ∧
    ∀ stays,
      pass.lostUsages external = (pass.reportedAlong stays [] external).map pass.usageFinding ∧
      ∀ report : Report, report.pushAll (pass.lostUsages external) =
        report.pushAll ((pass.reportedAlong stays [] external).map pass.usageFinding) := by
  have same (stays : Bool) :
      pass.lostUsages external = (pass.reportedAlong stays [] external).map pass.usageFinding := by
    have nothing : pass.Agree [] [] := fun _ _ => Iff.rfl
    rw [lostUsages_eq, reportedUsages_eq, nothing.reportedAlong]
  refine ⟨pass.lostUsages_eq external, fun reported found => ?_, fun stays => ⟨same stays, ?_⟩⟩
  · rw [reportedUsages_eq] at found
    obtain ⟨_, _, -, judged⟩ := mem_reportedAlong.mp found
    exact (reportedOf?_eq_some_iff.mp judged).2.2.2.2.not_public
  · intro report
    rw [same stays]

/-- In one file, `user` calls the public function `util` and the private function `hidden`; the
class `Inner` and the class around it are public. -/
def utilsCalls : List BuilderCall := [
  .module "core" .jvm, .directory "a" (.module ⟨0⟩ false) ⟨"a"⟩,
  .file ⟨0⟩ "Util.kt" none, .file ⟨0⟩ "Outer.kt" none,
  .decl { name := "util", kind := .function, parent := .file ⟨0⟩ },
  .decl { name := "hidden", kind := .function, parent := .file ⟨0⟩, visibility := .priv },
  .decl { name := "user", kind := .function, parent := .file ⟨0⟩ },
  .decl { name := "Outer", kind := .plainClass, parent := .file ⟨1⟩ },
  .decl { name := "Inner", kind := .plainClass, parent := .decl ⟨3⟩ },
  .referenceFrom ⟨2⟩ ⟨0⟩ {}, .referenceFrom ⟨2⟩ ⟨1⟩ {}]

def utils : Project := (Project.run? {} utilsCalls).getD {}

def moveUtils : Pass := .ofDecls utils utils.services {} (.decl ⟨4⟩) [⟨0⟩, ⟨1⟩]

def utilsUsages : List Usage := utils.collectUsages utils.services [.decl ⟨0⟩, .decl ⟨1⟩]

/-- The usage of `util` is passed over, and would not be reported otherwise. -/
theorem passed_over_moveUtils :
    moveUtils.isPublicTarget = true ∧
    moveUtils.reportedUsages utilsUsages = [(⟨⟨1⟩, ⟨1⟩, false⟩, ⟨2⟩)] ∧
    (utils.decl ⟨1⟩).visibility ≠ .pub ∧
    moveUtils.passesOver false ⟨⟨0⟩, ⟨0⟩, false⟩ = false ∧
    moveUtils.lostUsages utilsUsages =
      (moveUtils.reportedAlong false [] utilsUsages).map moveUtils.usageFinding := by
  have reported : moveUtils.reportedUsages utilsUsages = [(⟨⟨1⟩, ⟨1⟩, false⟩, ⟨2⟩)] := by
    decide +kernel
  obtain ⟨-, restricted, same⟩ := public_usages_passed_over moveUtils utilsUsages
  have notPublic : (utils.decl ⟨1⟩).visibility ≠ .pub :=
    restricted (⟨⟨1⟩, ⟨1⟩, false⟩, ⟨2⟩) (by simp [reported])
  exact ⟨by decide +kernel, reported, notPublic, by decide +kernel, (same false).1⟩

end Pass

end Relocation
