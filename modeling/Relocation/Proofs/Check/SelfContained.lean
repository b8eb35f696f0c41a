import Relocation.Proofs.Check.Boundary
import Relocation.Proofs.Sealed.Carried
set_option autoImplicit false

/-!
A move that is self-contained can only clash by name.

No reference crosses the boundary of such a move, and no sealed hierarchy does. So the detectors of
lost sight have nothing to look at that would concern them, those of hierarchies find them whole,
and no usage is dropped.
-/

namespace Relocation

namespace Project

variable (p : Project)

/-- Every reference that resolves moves exactly if its target does. -/
def SelfContained (moving : List Element) : Prop :=
  ∀ reference ∈ p.refIds, ∀ target ∈ (p.reference reference).target,
    p.isInside moving (.reference reference) = p.isInside moving (.decl target)

instance (moving : List Element) : Decidable (p.SelfContained moving) := by
  unfold SelfContained
  infer_instance

/-- The usages that are given to the passes of a request, in order. Those of the declarations are
split, and without repetition. -/
def usagesOfPasses (usages : List Usage) (elements : List Element) : List Usage :=
  (CheckState.ofUsages (p.usagesOfDecls usages elements) {}).usages ++
    (filesIn elements).flatMap (p.usagesOfFile usages)

variable {p}

theorem SelfContained.not_crosses {moving : List Element} (closed : p.SelfContained moving)
    {reference : RefId} {target : DeclId} : ¬ p.Crosses moving reference target := by
  intro crosses
  exact crosses.apart (closed reference (mem_refIds_of_target crosses.resolved) target
    crosses.resolved)

theorem SelfContained.not_atCrossing {moving : List Element} (closed : p.SelfContained moving)
    {element : Element} {code : Nat} : ¬ p.AtCrossing moving element code := by
  intro crossing
  obtain ⟨reference, target, crosses⟩ := crossing.exists_crosses
  exact closed.not_crosses crosses

theorem mem_usagesOfPasses (regular : p.Regular) {elements : List Element} {usage : Usage} :
    usage ∈ p.usagesOfPasses (p.collectUsages p.services elements) elements ↔
      usage ∈ p.collectUsages p.services elements := by
  have split : usage ∈ (CheckState.ofUsages
      (p.usagesOfDecls (p.collectUsages p.services elements) elements) {}).usages ↔
      usage ∈ p.usagesOfDecls (p.collectUsages p.services elements) elements := by
    rw [CheckState.usages, List.mem_append, Pass.mem_ofUsages_external, Pass.mem_ofUsages_internal]
    cases usage.isInternal <;> simp
  rw [usagesOfPasses, List.mem_append, split, List.mem_flatMap]
  constructor
  · rintro (named | ⟨file, -, found⟩)
    · exact (List.mem_filter.mp named).1
    · exact (List.mem_filter.mp found).1
  · exact regular.mem_usages_of_mem

end Project

namespace Pass.OfMove

variable {pass : Pass} (ofMove : pass.OfMove) (closed : pass.project.SelfContained pass.moving)
  (regular : pass.project.Regular) {usages : List Usage} {report : Report} {after : CheckState}
  (returned : pass.check (.ofUsages usages report) = .ok after)
  (collected : ∀ usage ∈ usages, pass.project.Collected pass.moving usage)
include ofMove closed regular returned collected

/-- A pass of a self-contained move leaves all usages. -/
theorem usages_left :
    after.external = (CheckState.ofUsages usages report).external ∧
      after.internal = (CheckState.ofUsages usages report).internal := by
  have reached : pass.usagesBeyondModule (CheckState.ofUsages usages report).external = [] :=
    List.eq_nil_iff_forall_not_mem.mpr fun finding found =>
      closed.not_atCrossing (atCrossing_usagesBeyondModule collected found)
  have inScope : pass.referencesOutOfScope = [] :=
    List.eq_nil_iff_forall_not_mem.mpr fun reported found =>
      closed.not_atCrossing (ofMove.referencesOutOfScope regular found)
  obtain ⟨later, -, rfl⟩ := (pass.check_eq_ok_iff _ _).mp returned
  simp [externalLeft, internalLeft, withoutReported, withoutReferences, reached, inScope]

/-- A pass of a self-contained move that carries its hierarchies along finds clashes only. -/
theorem code_findings (carried : pass.project.CarriesHierarchies pass.services pass.moving)
    (clashes : ∀ finding ∈ report.findings, finding.2.code = 1301) :
    ∀ finding ∈ after.report.findings, finding.2.code = 1301 := by
  intro finding member
  rcases ofMove.mem_findings regular collected returned member with
    early | ⟨hierarchies, hierarchical, found⟩ | found | crossing
  · exact clashes finding early
  · rw [hierarchyFindings_eq_nil carried ofMove.moving hierarchical] at found
    cases found
  · obtain ⟨-, -, -, code⟩ := pass.mem_nameClashes found
    exact code
  · exact absurd crossing closed.not_atCrossing

end Pass.OfMove

namespace Project

variable {p : Project}

theorem checkElements_selfContained (regular : p.Regular) {options : CheckOptions}
    {elements : List Element} {target : Target} {result : CheckResult}
    (closed : p.SelfContained elements) (carried : p.CarriesHierarchies p.services elements)
    (returned : p.checkElements p.services options elements target = .ok result) :
    (∀ finding ∈ result.report.findings, finding.2.code = 1301) ∧
      result.usagesRemaining =
        p.usagesOfPasses (p.collectUsages p.services elements) elements := by
  refine checkElements_induction (fun files report remaining =>
    (∀ finding ∈ report.findings, finding.2.code = 1301) ∧ remaining =
      (CheckState.ofUsages
        (p.usagesOfDecls (p.collectUsages p.services elements) elements) {}).usages ++
      files.flatMap (p.usagesOfFile (p.collectUsages p.services elements)))
    ?unnamed ?named ?file returned
  case unnamed =>
    intro none
    refine ⟨?_, ?_⟩
    · intro finding member
      cases member
    · simp [usagesOfDecls, none, CheckState.ofUsages, CheckState.usages, externalUsages,
        internalUsages]
  case named =>
    intro _ after checked
    refine ⟨?_, ?_⟩
    · apply Pass.ofMove_ofNamed.code_findings closed regular checked
        (regular.collected_of_mem_filter _) carried
      intro finding member
      cases member
    · obtain ⟨external, internal⟩ :=
        Pass.ofMove_ofNamed.usages_left closed regular checked (regular.collected_of_mem_filter _)
      simp [CheckState.usages, external, internal]
  case file =>
    intro files file listed report remaining outcome before checked
    obtain ⟨clashes, left⟩ := before
    have ofMove : (Pass.ofFile p p.services options target elements file).OfMove :=
      Pass.ofMove_ofFile regular listed
    rcases checkFile_eq_ok checked with ⟨-, rfl⟩ | ⟨after, checked, same, kept⟩
    · exact ⟨clashes, by simp [left]⟩
    · have collected : ∀ usage ∈ p.usagesOfFile (p.collectUsages p.services elements) file,
          p.Collected elements usage := regular.collected_of_mem_filter _
      obtain ⟨external, internal⟩ := ofMove.usages_left closed regular checked collected
      rw [same, kept external internal]
      refine ⟨?_, by simp [left]⟩
      exact ofMove.code_findings closed regular checked collected carried clashes

/-- If a request moves all that refers to what moves and all that it refers to, and whole sealed
hierarchies, then its check finds clashes of names only, and leaves all usages. -/
theorem self_contained_move_clashes_only (built : p.Built) (nested : p.NestedBelow 250)
    {request : Manifest.MoveEntry} {elements : List Element} {target : Target}
    (resolved : request.resolve p = .ok (elements, target)) (closed : p.SelfContained elements)
    (carried : p.CarriesHierarchies p.services elements) {options : CheckOptions}
    {result : CheckResult} (checked : p.checkMove p.services options request = .ok result) :
    (∀ finding ∈ result.report.findings, finding.2.code = 1301) ∧
      result.usagesRemaining = p.usagesOfPasses (p.collectUsages p.services elements) elements ∧
      ∀ usage, usage ∈ result.usagesRemaining ↔ usage ∈ p.collectUsages p.services elements := by
  obtain ⟨elements', target', resolved', returned⟩ := checkMove_eq_ok_iff.mp checked
  rw [resolved] at resolved'
  cases resolved'
  have regular := built.regular nested (by decide)
  obtain ⟨clashes, left⟩ := checkElements_selfContained regular closed carried returned
  refine ⟨clashes, left, fun usage => ?_⟩
  rw [left]
  exact mem_usagesOfPasses regular

/-- In package `a`, `Apple` inherits from the sealed class `Fruit` of the same file, and the internal
function `peel` of another file refers to it and is referred to. Package `b` has an `Apple` too. -/
def orchardCalls : List BuilderCall := [
  .module "farm" .jvm,
  .directory "farm/a" (.module ⟨0⟩ false) ⟨"a"⟩, .directory "farm/b" (.module ⟨0⟩ false) ⟨"b"⟩,
  .file ⟨0⟩ "Fruit.kt" none, .file ⟨0⟩ "Peel.kt" none, .file ⟨1⟩ "Brand.kt" none,
  .decl { name := "Fruit", kind := .plainClass, parent := .file ⟨0⟩, modality := .sealed },
  .internedType (.applied ⟨0⟩ [] false),
  .decl { name := "Apple", kind := .plainClass, parent := .file ⟨0⟩, supertypes := [⟨2⟩] },
  .decl { name := "peel", kind := .function, parent := .file ⟨1⟩, visibility := .internal },
  .decl { name := "Apple", kind := .plainClass, parent := .file ⟨2⟩ },
  .referenceFrom ⟨1⟩ ⟨0⟩ { inSupertypeList := true },
  .referenceFrom ⟨2⟩ ⟨1⟩ {}, .referenceFrom ⟨1⟩ ⟨2⟩ {}]

def orchard : Project := (run? {} orchardCalls).getD {}

theorem built_orchard : orchard.Built := ⟨orchardCalls, rfl⟩

def moveFruit : Manifest.MoveEntry where
  declarations := ["a.peel"]
  files := ["farm/a/Fruit.kt"]
  target := .directory "farm/b" none

def movedFruit : CheckResult where
  report := ⟨[(.decl ⟨1⟩, [⟨1301, .error,
    "Following declarations would clash: to move class Apple and destination class Apple " ++
      "declared in scope package b"⟩])]⟩
  usagesFound := 3
  usagesRemaining := [⟨⟨2⟩, ⟨2⟩, true⟩, ⟨⟨0⟩, ⟨0⟩, true⟩, ⟨⟨1⟩, ⟨1⟩, true⟩]

theorem checkMove_moveFruit (samePackage : Bool) :
    orchard.checkMove orchard.services
        { language := { sealedInheritorsInSamePackage := samePackage } } moveFruit =
      .ok movedFruit := by
  refine checkMove_eq_ok_iff.mpr ⟨[.decl ⟨2⟩, .file ⟨0⟩], .directory ⟨1⟩ ⟨"b"⟩, rfl, ?_⟩
  cases samePackage <;> decide +kernel

theorem clashes_only_moveFruit :
    (orchard.Built ∧ orchard.NestedBelow 250 ∧
      moveFruit.resolve orchard = .ok ([.decl ⟨2⟩, .file ⟨0⟩], .directory ⟨1⟩ ⟨"b"⟩) ∧
      orchard.SelfContained [.decl ⟨2⟩, .file ⟨0⟩] ∧
      orchard.CarriesHierarchies orchard.services [.decl ⟨2⟩, .file ⟨0⟩] ∧
      ∀ samePackage, orchard.checkMove orchard.services
          { language := { sealedInheritorsInSamePackage := samePackage } } moveFruit =
        .ok movedFruit) ∧
    (∀ finding ∈ movedFruit.report.findings, finding.2.code = 1301) ∧
      movedFruit.usagesRemaining = orchard.usagesOfPasses
        (orchard.collectUsages orchard.services [.decl ⟨2⟩, .file ⟨0⟩]) [.decl ⟨2⟩, .file ⟨0⟩] ∧
      ∀ usage, usage ∈ movedFruit.usagesRemaining ↔
        usage ∈ orchard.collectUsages orchard.services [.decl ⟨2⟩, .file ⟨0⟩] := by
  have nested : orchard.NestedBelow 250 := by decide +kernel
  have resolved : moveFruit.resolve orchard =
      .ok ([.decl ⟨2⟩, .file ⟨0⟩], .directory ⟨1⟩ ⟨"b"⟩) := rfl
  have closed : orchard.SelfContained [.decl ⟨2⟩, .file ⟨0⟩] := by decide +kernel
  have carried : orchard.CarriesHierarchies orchard.services [.decl ⟨2⟩, .file ⟨0⟩] := {
    superclass := by decide +kernel
    superInterfaces := by decide +kernel
    inheritors := by decide +kernel }
  exact ⟨⟨built_orchard, nested, resolved, closed, carried, checkMove_moveFruit⟩,
    self_contained_move_clashes_only built_orchard nested resolved closed carried
      (checkMove_moveFruit false)⟩

end Project

end Relocation
