import Mathlib.Logic.Relation
import Relocation.Project.Build
import Relocation.Proofs.Check.Run
import Relocation.Proofs.Project.Inside
import Relocation.Proofs.Sealed.Descent
import Relocation.Proofs.Sealed.Hierarchy
set_option autoImplicit false

/-!
The strict rule judges a sealed hierarchy from above.

A class is judged with all that descends from it, or from its superclass if it is not sealed
itself. Nothing looks further up and nothing looks at sealed interfaces of a class, so a hierarchy
is judged as a whole only where it is entered at its top or right below it. From there on all of it
has been seen, and nothing else is said about it.
-/

namespace Relocation

namespace Project

variable (p : Project)

/-- Comes from a sealed class through sealed classes. -/
def Descends : DeclId → DeclId → Prop :=
  Relation.ReflTransGen fun parent child =>
    (p.decl parent).isSealed = true ∧ parent ∈ p.supertypeDecls child

variable {p}

theorem Descends.sameHierarchy {top id : DeclId} (below : p.Descends top id) :
    p.SameHierarchy top id :=
  Relation.ReflTransGen.mono (fun _ _ => Or.inl) _ _ below

end Project

namespace Pass

variable {pass : Pass}

theorem strictRoot?_eq_some {element root : DeclId} :
    pass.strictRoot? element = some root ↔
      (pass.project.decl element).kind.isClassLike = true ∧
        ((pass.project.decl element).isSealed = true ∧ element = root ∨
          (pass.project.decl element).isSealed = false ∧
            pass.project.superclass? element = some root ∧
            (pass.project.decl root).isSealed = true) := by
  unfold strictRoot? isSealed
  cases (pass.project.decl element).kind.isClassLike <;>
    cases (pass.project.decl element).isSealed <;> simp [Option.filter_eq_some_iff]

theorem sealed_of_strictRoot? {element root : DeclId}
    (rooted : pass.strictRoot? element = some root) :
    (pass.project.decl root).isSealed = true := by
  rcases (strictRoot?_eq_some.mp rooted).2 with ⟨isSealed, rfl⟩ | ⟨-, -, isSealed⟩
  · exact isSealed
  · exact isSealed

theorem descends_of_strictRoot? {element root : DeclId}
    (rooted : pass.strictRoot? element = some root) : pass.project.Descends root element := by
  rcases (strictRoot?_eq_some.mp rooted).2 with ⟨-, rfl⟩ | ⟨-, superclass, isSealed⟩
  · exact Relation.ReflTransGen.refl
  · exact Relation.ReflTransGen.single ⟨isSealed, List.mem_of_find?_eq_some superclass⟩

section Descent

variable (search : pass.services = pass.project.services)
include search

theorem comesDown_iff {root id : DeclId} :
    pass.ComesDown root id ↔ pass.project.Descends root id := by
  have inheritors (parent child : DeclId) :
      (pass.isSealed parent = true ∧ child ∈ pass.services.directInheritors parent) ↔
        (pass.project.decl parent).isSealed = true ∧
          parent ∈ pass.project.supertypeDecls child :=
    and_congr_right (mem_directInheritors search)
  simp only [ComesDown, Project.Descends, inheritors]

theorem mem_sealedSubclasses {root id : DeclId} :
    id ∈ pass.sealedSubclasses root ↔ pass.project.Descends root id ∧ id ≠ root := by
  rw [mem_sealedSubclasses_iff, comesDown_iff search]

theorem sameHierarchy_of_judged {element root member : DeclId}
    (rooted : pass.strictRoot? element = some root)
    (judged : member ∈ root :: pass.sealedSubclasses root) :
    pass.project.SameHierarchy element member := by
  have above := (descends_of_strictRoot? rooted).sameHierarchy.symm
  rcases List.mem_cons.mp judged with rfl | below
  · exact above
  · exact above.trans ((mem_sealedSubclasses search).mp below).1.sameHierarchy

end Descent

/-- One step of a pass: an element is passed over as seen before, is seen without a family, or is
judged with its family. -/
theorem strictFindings_cases (seen : List DeclId) (element : DeclId) (rest : List DeclId) :
    (element ∈ seen ∧
      pass.strictFindings seen (element :: rest) = pass.strictFindings seen rest) ∨
    ((∀ root, pass.strictRoot? element = some root → pass.sealedSubclasses root = []) ∧
      pass.strictFindings seen (element :: rest) = pass.strictFindings (element :: seen) rest) ∨
    ∃ root, pass.strictRoot? element = some root ∧
      pass.strictFindings seen (element :: rest) =
        (if (root :: pass.sealedSubclasses root).all fun id => pass.isMoving (.decl id) then []
          else [pass.strictFinding element root]) ++
        pass.strictFindings (pass.sealedSubclasses root ++ root :: element :: seen) rest := by
  by_cases known : element ∈ seen
  · exact Or.inl ⟨known, by simp [strictFindings, known]⟩
  refine Or.inr ?_
  cases rooted : pass.strictRoot? element with
  | none => exact Or.inl ⟨by simp, by simp [strictFindings, known, rooted]⟩
  | some root =>
    by_cases alone : pass.sealedSubclasses root = []
    · refine Or.inl ⟨?_, by simp [strictFindings, known, rooted, alone]⟩
      intro _ same
      cases same
      exact alone
    · refine Or.inr ⟨root, rfl, ?_⟩
      simp only [strictFindings, known, rooted, if_false, List.isEmpty_iff, alone]
      split <;> rfl

/-- None of the classes seen so far is of the hierarchy of `id`. -/
def NoClassSeen (pass : Pass) (id : DeclId) (seen : List DeclId) : Prop :=
  ∀ member ∈ seen, (pass.project.decl member).kind.isClassLike = true →
    ¬ pass.project.SameHierarchy id member

section Enters

variable {id entry top : DeclId} (search : pass.services = pass.project.services)
include search

theorem NoClassSeen.judged {seen : List DeclId} (unseen : pass.NoClassSeen id seen)
    {element root : DeclId} (apart : ¬ pass.project.SameHierarchy id element)
    (rooted : pass.strictRoot? element = some root) :
    pass.NoClassSeen id (pass.sealedSubclasses root ++ root :: element :: seen) := by
  have family {member : DeclId} (judged : member ∈ root :: pass.sealedSubclasses root) :
      ¬ pass.project.SameHierarchy id member :=
    fun same => apart (same.trans (sameHierarchy_of_judged search rooted judged).symm)
  intro member listed classLike
  simp only [List.mem_append, List.mem_cons] at listed
  rcases listed with below | rfl | rfl | early
  · exact family (List.mem_cons_of_mem _ below)
  · exact family (List.mem_cons_self ..)
  · exact apart
  · exact unseen member early classLike

/-- At an element of no class of the hierarchy nothing is said about it. -/
theorem strictFindings_of_apart {seen : List DeclId} (unseen : pass.NoClassSeen id seen)
    {element : DeclId}
    (apart : (pass.project.decl element).kind.isClassLike = true →
      ¬ pass.project.SameHierarchy id element) (rest : List DeclId) :
    ∃ found now, pass.strictFindings seen (element :: rest) =
        found ++ pass.strictFindings now rest ∧
      pass.NoClassSeen id now ∧ ∀ finding ∈ found, ¬ pass.project.IsAbout id finding := by
  rcases strictFindings_cases seen element rest with
    ⟨-, passed⟩ | ⟨-, passed⟩ | ⟨root, rooted, judged⟩
  · exact ⟨[], seen, passed, unseen, nofun⟩
  · exact ⟨[], element :: seen, passed, List.forall_mem_cons.mpr ⟨apart, unseen⟩, nofun⟩
  · have elsewhere := apart (strictRoot?_eq_some.mp rooted).1
    refine ⟨_, _, judged, unseen.judged search elsewhere rooted, ?_⟩
    rintro finding here ⟨member, key, inside⟩
    split at here
    · cases here
    · rw [List.mem_singleton.mp here] at key
      exact elsewhere (Element.decl.inj key ▸ inside)

theorem strictFindings_append_of_apart {seen passed : List DeclId}
    (unseen : pass.NoClassSeen id seen)
    (apart : ∀ element ∈ passed, (pass.project.decl element).kind.isClassLike = true →
      ¬ pass.project.SameHierarchy id element) (rest : List DeclId) :
    ∃ earlier now, pass.strictFindings seen (passed ++ rest) =
        earlier ++ pass.strictFindings now rest ∧
      pass.NoClassSeen id now ∧ ∀ finding ∈ earlier, ¬ pass.project.IsAbout id finding := by
  induction passed generalizing seen with
  | nil => exact ⟨[], seen, rfl, unseen, nofun⟩
  | cons element passed inductionHypothesis =>
    obtain ⟨elementApart, passedApart⟩ := List.forall_mem_cons.mp apart
    obtain ⟨found, next, here, nextUnseen, foundOthers⟩ :=
      strictFindings_of_apart search unseen elementApart (passed ++ rest)
    obtain ⟨earlier, now, split, nowUnseen, earlierOthers⟩ :=
      inductionHypothesis nextUnseen passedApart
    refine ⟨found ++ earlier, now, ?_, nowUnseen, ?_⟩
    · rw [List.cons_append, here, split, List.append_assoc]
    · exact List.forall_mem_append.mpr ⟨foundOthers, earlierOthers⟩

variable (whole : ∀ member, pass.project.SameHierarchy id member →
  pass.project.Descends top member)
include whole

/-- All of a hierarchy is judged with the class that all of it descends from. -/
theorem judged_of_sameHierarchy {member : DeclId} (same : pass.project.SameHierarchy id member) :
    member ∈ top :: pass.sealedSubclasses top := by
  by_cases isTop : member = top
  · exact isTop ▸ List.mem_cons_self ..
  · exact List.mem_cons_of_mem _ ((mem_sealedSubclasses search).mpr ⟨whole member same, isTop⟩)

/-- A hierarchy that has been judged is not judged again. -/
theorem strictFindings_of_judged {seen elements : List DeclId}
    (judged : top :: pass.sealedSubclasses top ⊆ seen) {finding : Finding}
    (found : finding ∈ pass.strictFindings seen elements) :
    ¬ pass.project.IsAbout id finding := by
  rintro ⟨member, key, inside⟩
  obtain ⟨element, -, new, root, -, rfl, -⟩ := pass.mem_strictFindings found
  obtain rfl : element = member := Element.decl.inj key
  exact new (judged (judged_of_sameHierarchy search whole inside))

variable (rooted : pass.strictRoot? entry = some top)
  (moves : pass.isMoving (.decl entry) = true)
  (torn : ∃ member, pass.project.SameHierarchy id member ∧
    pass.isMoving (.decl member) = false)
include rooted moves torn

/-- Where a hierarchy is entered it is reported, and not afterwards. -/
theorem strictFindings_at_entry {seen : List DeclId} (unseen : pass.NoClassSeen id seen)
    (classLike : (pass.project.decl entry).kind.isClassLike = true)
    (inside : pass.project.SameHierarchy id entry) (rest : List DeclId) :
    ∃ later, pass.strictFindings seen (entry :: rest) = pass.strictFinding entry top :: later ∧
      ∀ finding ∈ later, ¬ pass.project.IsAbout id finding := by
  obtain ⟨staying, stayingInside, stays⟩ := torn
  have stayingJudged := judged_of_sameHierarchy search whole stayingInside
  rcases strictFindings_cases seen entry rest with ⟨known, -⟩ | ⟨alone, -⟩ | ⟨root, same, judged⟩
  · exact absurd inside (unseen entry known classLike)
  · -- Without a family the entry is all of the hierarchy, so nothing of it stays.
    have entryJudged := judged_of_sameHierarchy search whole inside
    rw [alone top rooted, List.mem_singleton] at entryJudged stayingJudged
    rw [stayingJudged, ← entryJudged, moves] at stays
    cases stays
  · obtain rfl : top = root := Option.some.inj (rooted.symm.trans same)
    have split : ((top :: pass.sealedSubclasses top).all fun id => pass.isMoving (.decl id)) =
        false := List.all_eq_false.mpr ⟨staying, stayingJudged, by simp [stays]⟩
    rw [split] at judged
    refine ⟨_, judged, fun finding found => strictFindings_of_judged search whole ?_ found⟩
    simp

/-- A hierarchy that is entered where all of it descends is judged once, there. -/
theorem strictFindings_of_enters {seen elements : List DeclId} (unseen : pass.NoClassSeen id seen)
    (entered : pass.project.Enters elements id entry) :
    ∃ earlier later, pass.strictFindings seen elements =
        earlier ++ pass.strictFinding entry top :: later ∧
      ∀ finding ∈ earlier ++ later, ¬ pass.project.IsAbout id finding := by
  obtain ⟨passed, rest, rfl, classLike, inside, apart⟩ := entered
  obtain ⟨earlier, now, before, nowUnseen, earlierOthers⟩ :=
    strictFindings_append_of_apart search unseen apart (entry :: rest)
  obtain ⟨later, here, laterOthers⟩ :=
    strictFindings_at_entry search whole rooted moves torn nowUnseen classLike inside rest
  refine ⟨earlier, later, by rw [before, here], ?_⟩
  exact List.forall_mem_append.mpr ⟨earlierOthers, laterOthers⟩

end Enters

/-- A hierarchy that moves as a whole is not found torn. -/
theorem not_isAbout_of_whole (search : pass.services = pass.project.services) {id : DeclId}
    (moves : ∀ member, pass.project.SameHierarchy id member →
      pass.isMoving (.decl member) = true)
    {seen elements : List DeclId} {finding : Finding}
    (found : finding ∈ pass.strictFindings seen elements) :
    ¬ pass.project.IsAbout id finding := by
  rintro ⟨member, key, inside⟩
  obtain ⟨element, -, -, root, rooted, rfl, other, judged, stays⟩ := pass.mem_strictFindings found
  obtain rfl : element = member := Element.decl.inj key
  have same := inside.trans (sameHierarchy_of_judged search rooted judged)
  rw [moves other same] at stays
  cases stays

end Pass

/-- What the report of a pass under the strict rule says of sealed hierarchies. Nothing is said of
one that moves as a whole. One that does not, and is entered at its top or at a class right below
that, is reported once, at that class. -/
structure Project.JudgesFromAbove (p : Project) (elements : List DeclId) (report : Report) : Prop
    where
  distinct : report.parted.Nodup
  whole : ∀ id,
    (∀ member, p.SameHierarchy id member →
      p.isInside (elements.map .decl) (.decl member) = true) →
    ∀ finding ∈ report.parted, ¬ p.IsAbout id finding
  torn : ∀ id entry top, p.Enters elements id entry →
    (entry = top ∨ (p.decl entry).isSealed = false ∧ p.superclass? entry = some top) →
    (p.decl top).isSealed = true →
    (∀ member, p.SameHierarchy id member → p.Descends top member) →
    (∃ member, p.SameHierarchy id member ∧
      p.isInside (elements.map .decl) (.decl member) = false) →
    ∃ finding ∈ report.parted, finding.1 = .decl entry ∧
      finding.2.code = (if entry = top then 1201 else 1202) ∧
      ∀ other ∈ report.parted, p.IsAbout id other → other = finding

namespace Pass

variable {p : Project} {options : CheckOptions} {target : Target} {elements : List DeclId}

theorem mem_parted {usages : List Usage} {after : CheckState}
    (strict : options.language.sealedInheritorsInSamePackage = false)
    (returned : (ofDecls p p.services options target elements).check (.ofUsages usages {}) =
      .ok after) {finding : Finding} :
    finding ∈ after.report.parted ↔
      finding ∈ (ofDecls p p.services options target elements).strictFindings [] elements := by
  have found : (ofDecls p p.services options target elements).hierarchyFindings =
      .ok ((ofDecls p p.services options target elements).strictFindings [] elements) := by
    simp only [hierarchyFindings, ofDecls, strict]
    rfl
  have coded : finding ∈ (ofDecls p p.services options target elements).strictFindings [] elements →
      finding.2.code = 1201 ∨ finding.2.code = 1202 := by
    intro member
    obtain ⟨element, -, -, root, -, rfl, -⟩ := mem_strictFindings _ member
    rw [code_strictFinding]
    split <;> simp
  have listed (code : finding.2.code = 1201 ∨ finding.2.code = 1202) :
      finding ∈ after.report.findings ↔
        finding ∈ (ofDecls p p.services options target elements).strictFindings [] elements := by
    rw [mem_findings_of_first_check _ returned (by omega)]
    simp [FindsTorn, found]
  rw [Report.mem_parted]
  constructor
  · rintro ⟨member, code⟩
    exact (listed code).mp member
  · intro member
    exact ⟨(listed (coded member)).mpr member, coded member⟩

theorem hierarchies_judged_from_above
    (strict : options.language.sealedInheritorsInSamePackage = false) (usages : List Usage) :
    ∃ after, (ofDecls p p.services options target elements).check (.ofUsages usages {}) =
        .ok after ∧
      p.JudgesFromAbove elements after.report := by
  have returns : ∃ findings, (ofDecls p p.services options target elements).hierarchyFindings =
      .ok findings := by
    simp only [hierarchyFindings, ofDecls, strict]
    exact ⟨_, rfl⟩
  obtain ⟨after, returned⟩ := (check_returns_iff _ (.ofUsages usages {})).mpr returns
  have listed {finding : Finding} : finding ∈ after.report.parted ↔
      finding ∈ (ofDecls p p.services options target elements).strictFindings [] elements :=
    mem_parted strict returned
  refine ⟨after, returned, ?distinct, ?whole, ?torn⟩
  case distinct =>
    obtain ⟨later, -, rfl⟩ := (check_eq_ok_iff _ _ _).mp returned
    exact (Report.tidy_empty.pushAll _).nodup_findings.filter _
  case whole =>
    intro id moves finding member
    exact not_isAbout_of_whole rfl moves (listed.mp member)
  case torn =>
    intro id entry top entered position isSealed whole torn
    have rooted : (ofDecls p p.services options target elements).strictRoot? entry = some top := by
      obtain ⟨-, -, -, classLike, -, -⟩ := entered
      refine strictRoot?_eq_some.mpr ⟨classLike, ?_⟩
      rcases position with rfl | ⟨isOpen, superclass⟩
      · exact Or.inl ⟨isSealed, rfl⟩
      · exact Or.inr ⟨isOpen, superclass, isSealed⟩
    have moves : (ofDecls p p.services options target elements).isMoving (.decl entry) = true :=
      Project.isInside_of_mem (List.mem_map_of_mem entered.mem)
    obtain ⟨earlier, later, split, others⟩ :=
      strictFindings_of_enters rfl whole rooted moves torn (List.forall_mem_nil _) entered
    refine ⟨_, listed.mpr (split ▸ List.mem_append_right _ (List.mem_cons_self ..)), rfl,
      code_strictFinding _ entry top, ?_⟩
    intro other member about
    have found := listed.mp member
    simp only [split, List.mem_append, List.mem_cons] at found
    rcases found with early | same | late
    · exact absurd about (others other (List.mem_append_left _ early))
    · exact same
    · exact absurd about (others other (List.mem_append_right _ late))

/-- A sealed class with a sealed class and a plain one below it, and below that another; and a
sealed interface with one class. -/
def expressions : Project :=
  let p := ({} : Project).addModule "core" .jvm
  let p := p.addDirectory "a" (.module ⟨0⟩ false) ⟨"a"⟩
  let p := p.addDirectory "b" (.module ⟨0⟩ false) ⟨"b"⟩
  let p := (p.addFile ⟨0⟩ "Expr.kt" none).addFile ⟨0⟩ "Visit.kt" none
  let p := p.addDecl
    { name := "Expr", kind := .plainClass, parent := .file ⟨0⟩, modality := .sealed }
  let (expr, p) := p.classType ⟨0⟩
  let p := p.addDecl
    { name := "Binary", kind := .plainClass, parent := .file ⟨0⟩, modality := .sealed,
      supertypes := [expr] }
  let (binary, p) := p.classType ⟨1⟩
  let p := p.addDecl
    { name := "Plus", kind := .plainClass, parent := .file ⟨0⟩, supertypes := [binary] }
  let p := p.addDecl
    { name := "Const", kind := .plainClass, parent := .file ⟨0⟩, supertypes := [expr] }
  let p := p.addDecl
    { name := "Visitor", kind := .interface, parent := .file ⟨1⟩, modality := .sealed }
  let (visitor, p) := p.classType ⟨4⟩
  p.addDecl { name := "Printer", kind := .plainClass, parent := .file ⟨1⟩, supertypes := [visitor] }

def moveExpressions (elements : List DeclId) : Pass :=
  .ofDecls expressions expressions.services { language := { sealedInheritorsInSamePackage := false } }
    (.directory ⟨1⟩ ⟨"b"⟩) elements

theorem plainHierarchies_expressions : expressions.PlainHierarchies where
  fromSource := by decide +kernel
  oneSuperclass := by decide +kernel
  sealedKind := by decide +kernel
  irreflexive := by decide +kernel
  limited := Project.length_le_of_size_le (by decide +kernel)

theorem sameHierarchy_expressions :
    expressions.SameHierarchy ⟨5⟩ ⟨4⟩ ∧ expressions.SameHierarchy ⟨1⟩ ⟨0⟩ ∧
      expressions.SameHierarchy ⟨1⟩ ⟨3⟩ := by
  have below : expressions.SameHierarchy ⟨1⟩ ⟨0⟩ := .of_linked (by decide +kernel)
  exact ⟨.of_linked (by decide +kernel), below, below.trans (.of_linked (by decide +kernel))⟩

/-- A class is not judged from a sealed interface, nor a sealed class from the one above it. So two
hierarchies of which something stays are not reported, and one is reported twice. -/
theorem hierarchies_judged_in_part :
    expressions.PlainHierarchies ∧
    ((moveExpressions [⟨5⟩]).check (.ofUsages [] {}) = .ok {} ∧
      expressions.SameHierarchy ⟨5⟩ ⟨4⟩ ∧ (moveExpressions [⟨5⟩]).isMoving (.decl ⟨4⟩) = false) ∧
    ((moveExpressions [⟨1⟩, ⟨2⟩]).check (.ofUsages [] {}) = .ok {} ∧
      expressions.SameHierarchy ⟨1⟩ ⟨0⟩ ∧
      (moveExpressions [⟨1⟩, ⟨2⟩]).isMoving (.decl ⟨0⟩) = false) ∧
    (((moveExpressions [⟨1⟩, ⟨3⟩]).check (.ofUsages [] {})).map
        (fun after => after.report.parted.map Prod.fst) = .ok [.decl ⟨1⟩, .decl ⟨3⟩] ∧
      expressions.SameHierarchy ⟨1⟩ ⟨3⟩) := by
  obtain ⟨printer, binary, const⟩ := sameHierarchy_expressions
  refine ⟨plainHierarchies_expressions, ⟨?_, printer, ?_⟩, ⟨?_, binary, ?_⟩, ?_, const⟩ <;>
    decide +kernel

theorem descends_expr (member : DeclId) (inside : expressions.SameHierarchy ⟨0⟩ member) :
    expressions.Descends ⟨0⟩ member := by
  have closed : ∀ a ∈ [(⟨0⟩ : DeclId), ⟨1⟩, ⟨2⟩, ⟨3⟩], ∀ b ∈ expressions.declIds,
      expressions.Linked a b → b ∈ [(⟨0⟩ : DeclId), ⟨1⟩, ⟨2⟩, ⟨3⟩] := by decide +kernel
  have listed : member ∈ [(⟨0⟩ : DeclId), ⟨1⟩, ⟨2⟩, ⟨3⟩] := by
    induction inside with
    | refl => decide
    | tail _ linked inductionHypothesis =>
      exact closed _ inductionHypothesis _ linked.inside.2 linked
  have binary : expressions.Descends ⟨0⟩ ⟨1⟩ := .single (by decide +kernel)
  simp only [List.mem_cons, List.not_mem_nil, or_false] at listed
  rcases listed with rfl | rfl | rfl | rfl
  · exact .refl
  · exact binary
  · exact binary.tail (by decide +kernel)
  · exact .single (by decide +kernel)

/-- `Expr` is the top of its hierarchy, and `Const` stays. -/
theorem judged_from_above_expr :
    ∃ after, (moveExpressions [⟨0⟩, ⟨1⟩]).check (.ofUsages [] {}) = .ok after ∧
      expressions.JudgesFromAbove [⟨0⟩, ⟨1⟩] after.report ∧
      ∃ finding ∈ after.report.parted, finding.1 = .decl ⟨0⟩ ∧ finding.2.code = 1201 := by
  have run : ∃ after, (moveExpressions [⟨0⟩, ⟨1⟩]).check (.ofUsages [] {}) = .ok after ∧
      expressions.JudgesFromAbove [⟨0⟩, ⟨1⟩] after.report :=
    hierarchies_judged_from_above rfl []
  obtain ⟨after, returned, judged⟩ := run
  refine ⟨after, returned, judged, ?_⟩
  obtain ⟨finding, member, key, code, -⟩ := judged.torn ⟨0⟩ ⟨0⟩ ⟨0⟩
    ⟨[], [⟨1⟩], rfl, by decide +kernel, .refl _, by simp⟩ (Or.inl rfl) (by decide +kernel)
    descends_expr ⟨⟨3⟩, .of_linked (by decide +kernel), by decide +kernel⟩
  exact ⟨finding, member, key, code⟩

end Pass

end Relocation
