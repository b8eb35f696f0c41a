import Relocation.Proofs.Check.Request
import Relocation.Proofs.Text.Tags
set_option autoImplicit false

/-!
The markup of conflicts in HTML. Every detector but that of sealed hierarchies hands its names over
escaped and set off, so whatever they are called, nothing of them is markup. The messages about
sealed hierarchies quote names as they are: their texts are free of markup if the names are.
-/

namespace Relocation

open Text

theorem plain_escapeHtml (c : Char) : Plain (escapeHtml c) := by
  unfold escapeHtml
  split
  · decide
  · decide
  · decide
  · decide
  next notLess notGreater _ notQuote =>
    refine List.forall_mem_singleton.mpr ?_
    simp only [isMarkup, Bool.or_eq_false_iff, beq_eq_false_iff_ne]
    exact ⟨⟨notLess, notGreater⟩, notQuote⟩

theorem marked_emphasize (text : String) :
    Marked nameTags (Style.html.emphasize text).toList := by
  have escaped : Plain (text.toList.flatMap escapeHtml) := by
    intro c among
    obtain ⟨original, -, here⟩ := List.mem_flatMap.mp among
    exact plain_escapeHtml original c here
  have closing : Marked nameTags closingTag := by
    rw [← List.append_nil closingTag]
    exact .tag (by decide) .nil
  simp only [Style.emphasize, String.toList_append, String.toList_ofList, List.append_assoc]
  exact .tag (by decide) (escaped.marked.append closing)

theorem plain_word (kind : DeclKind) : Plain kind.word.toList := by
  cases kind <;> decide

namespace Project

variable (p : Project)

theorem marked_describeDecl (id : DeclId) :
    Marked nameTags (p.describeDecl .html id).toList := by
  simp only [describeDecl, String.toList_append]
  exact ((plain_word _).append (by decide)).marked.append (marked_emphasize _)

theorem marked_describeFile (id : FileId) :
    Marked nameTags (p.describeFile .html id).toList := by
  simp only [describeFile, String.toList_append]
  exact (Plain.marked (by decide)).append (marked_emphasize _)

theorem marked_describeUsage (id : RefId) :
    Marked nameTags (p.describeUsage .html id).toList := by
  unfold describeUsage
  split
  · exact p.marked_describeDecl _
  · exact p.marked_describeFile _

theorem marked_describeContainer (container : Container) :
    Marked nameTags (p.describeContainer .html container).toList := by
  cases container with
  | decl id => exact p.marked_describeDecl id
  | package fragment =>
    simp only [describeContainer, String.toList_append]
    exact (Plain.marked (by decide)).append (marked_emphasize _)

theorem marked_describeModule (id : ModuleId) :
    Marked nameTags (p.describeModule .html id).toList :=
  marked_emphasize _

end Project

theorem plain_template {message : Message} (listed : message ∈ Message.catalogue) :
    Plain message.template.toList := by
  simp only [Message.catalogue, List.mem_cons, List.not_mem_nil, or_false] at listed
  rcases listed with rfl | rfl | rfl | rfl | rfl | rfl | rfl | rfl | rfl | rfl
  all_goals decide +kernel

theorem Message.marked_conflict {message : Message} (listed : message ∈ catalogue)
    {arguments : List String}
    (fillers : ∀ argument ∈ arguments, Marked nameTags argument.toList) :
    Marked nameTags (message.conflict arguments).text.toList := by
  refine Marked.capitalize ?_
  unfold fill
  rw [String.toList_ofList]
  exact (plain_template listed).marked.fillFrom fillers 0

namespace Pass

variable (pass : Pass)

section Emphasized

variable (html : pass.options.style = .html)
include html

theorem marked_describeDecl (id : DeclId) : Marked nameTags (pass.describeDecl id).toList := by
  rw [Pass.describeDecl, html]
  exact pass.project.marked_describeDecl id

theorem marked_describeUsage (id : RefId) : Marked nameTags (pass.describeUsage id).toList := by
  rw [Pass.describeUsage, html]
  exact pass.project.marked_describeUsage id

theorem marked_describeModule (id : ModuleId) :
    Marked nameTags (pass.describeModule id).toList := by
  rw [Pass.describeModule, html]
  exact pass.project.marked_describeModule id

theorem marked_usageBeyondModule? {location : TargetLocation} {module : ModuleId} {usage : Usage}
    {finding : Finding} (found : pass.usageBeyondModule? location module usage = some finding) :
    Marked nameTags finding.2.text.toList := by
  simp only [usageBeyondModule?] at found
  split at found
  · cases found
  · obtain ⟨usageModule, -, rfl⟩ := Option.map_eq_some_iff.mp found
    refine Message.marked_conflict ?_ ?_
    · split
      · decide
      · decide
    · simp only [List.forall_mem_cons]
      exact ⟨pass.marked_describeDecl html _, pass.marked_describeUsage html _,
        pass.marked_describeModule html _, List.forall_mem_nil _⟩

theorem marked_referenceOutOfScope? {module : ModuleId} {scope : ModuleScope} {id : RefId}
    {reported : RefId × Finding}
    (found : pass.referenceOutOfScope? module scope id = some reported) :
    Marked nameTags reported.2.2.text.toList := by
  obtain ⟨target, owner, -, -, -, -, -, rfl⟩ := pass.referenceOutOfScope?_eq_some_iff.mp found
  refine Message.marked_conflict (by decide) ?_
  simp only [List.forall_mem_cons]
  exact ⟨pass.marked_describeDecl html _, pass.marked_describeDecl html _,
    pass.marked_describeModule html _, List.forall_mem_nil _⟩

theorem marked_lostUsages {external : List Usage} {finding : Finding}
    (found : finding ∈ pass.lostUsages external) : Marked nameTags finding.2.text.toList := by
  unfold lostUsages at found
  split at found
  · cases found
  · obtain ⟨⟨usage, owner⟩, -, rfl⟩ := List.mem_map.mp found
    refine Message.marked_conflict (by decide) ?_
    simp only [List.forall_mem_cons]
    exact ⟨pass.marked_describeDecl html _, pass.marked_describeDecl html _,
      List.forall_mem_nil _⟩

theorem marked_lostReferences {finding : Finding} (found : finding ∈ pass.lostReferences) :
    Marked nameTags finding.2.text.toList := by
  obtain ⟨_, -, _, -, _, -, lost⟩ := pass.mem_lostReferences_iff.mp found
  obtain ⟨_, -, -, -, -, rfl⟩ := pass.lostReference?_eq_some_iff.mp lost
  refine Message.marked_conflict (by decide) ?_
  simp only [List.forall_mem_cons]
  exact ⟨pass.marked_describeDecl html _, pass.marked_describeDecl html _,
    List.forall_mem_nil _⟩

theorem marked_foreignReferences {finding : Finding} (found : finding ∈ pass.foreignReferences) :
    Marked nameTags finding.2.text.toList := by
  obtain ⟨_, -, _, -, _, -, foreign⟩ := pass.mem_foreignReferences_iff.mp found
  obtain ⟨_, -, -, -, -, rfl⟩ := pass.foreignReference?_eq_some_iff.mp foreign
  refine Message.marked_conflict (by decide) ?_
  simp only [List.forall_mem_cons]
  exact ⟨pass.marked_describeUsage html _, pass.marked_describeDecl html _,
    List.forall_mem_nil _⟩

theorem marked_nameClashes {finding : Finding} (found : finding ∈ pass.nameClashes) :
    Marked nameTags finding.2.text.toList := by
  unfold nameClashes at found
  split at found
  · cases found
  · obtain ⟨_, -, clashing⟩ := List.mem_flatMap.mp found
    obtain ⟨⟨other, scope⟩, -, rfl⟩ := List.mem_map.mp clashing
    refine Message.marked_conflict (by decide) ?_
    rw [html]
    simp only [List.forall_mem_cons]
    exact ⟨pass.marked_describeDecl html _, pass.marked_describeDecl html _,
      pass.project.marked_describeContainer _, List.forall_mem_nil _⟩

end Emphasized

end Pass

/-- The names that messages about sealed hierarchies quote are free of markup. -/
structure Project.PlainNames (p : Project) (target : Target) : Prop where
  decl : ∀ id, Plain (p.decl id).name.toList
  module : ∀ id, Plain (p.module id).name.toList
  file : ∀ id, Plain (p.packageOfFile id).text.toList
  target : ∀ name, target.package? p = some name → Plain name.text.toList

theorem plain_child {name : QualifiedName} {segment : String} (outer : Plain name.text.toList)
    (inner : Plain segment.toList) : Plain (name.child segment).text.toList := by
  unfold QualifiedName.child
  split
  · exact inner
  · simp only [String.toList_append]
    exact (outer.append (by decide)).append inner

theorem plain_commaSeparated {texts : List String} (each : ∀ text ∈ texts, Plain text.toList) :
    Plain (commaSeparated texts).toList := by
  rw [commaSeparated, String.toList_intercalate]
  induction texts with
  | nil => exact List.forall_mem_nil _
  | cons text rest inductionHypothesis =>
    obtain ⟨here, later⟩ := List.forall_mem_cons.mp each
    cases rest with
    | nil => simpa using here
    | cons next rest =>
      rw [List.map_cons, List.map_cons, List.intercalate_cons_cons]
      exact (here.append (by decide)).append (inductionHypothesis later)

namespace Project

variable {p : Project}

theorem package_of_mem_containersFrom {count : Nat} {id : DeclId} {fragment : PackageFragment}
    (member : .package fragment ∈ p.containersFrom count (p.container id)) :
    ∃ file, fragment.name = p.packageOfFile file := by
  induction count generalizing id with
  | zero => cases member
  | succ count inductionHypothesis =>
    unfold containersFrom container at member
    cases parent : (p.decl id).parent with
    | file file =>
      rw [parent] at member
      cases List.mem_singleton.mp member
      exact ⟨file, rfl⟩
    | decl owner =>
      rw [parent] at member
      rcases List.mem_cons.mp member with same | outer
      · cases same
      · exact inductionHypothesis outer

namespace PlainNames

variable {target : Target} (plain : p.PlainNames target)
include plain

theorem packageAtEnd (id : DeclId) : Plain (packageAtEnd (p.containers id)).text.toList := by
  unfold Project.packageAtEnd
  split
  next fragment last =>
    obtain ⟨file, same⟩ := package_of_mem_containersFrom (List.mem_of_getLast? last)
    rw [same]
    exact plain.file file
  · exact List.forall_mem_nil _

theorem qualifiedName (id : DeclId) : Plain (p.qualifiedName id).text.toList := by
  unfold Project.qualifiedName
  induction id :: p.owners id with
  | nil => exact plain.packageAtEnd id
  | cons inner owners inductionHypothesis =>
    exact plain_child inductionHypothesis (plain.decl inner)

end PlainNames

end Project

namespace Pass

variable (pass : Pass)

theorem plain_packageWord {name : QualifiedName} (plain : Plain name.text.toList) :
    Plain (packageWord name).toList := by
  unfold packageWord
  split
  · decide
  · exact plain

section Quoted

variable (plain : pass.project.PlainNames pass.target)
include plain

theorem plain_memberNames (ids : List DeclId) : Plain (pass.memberNames ids).toList := by
  refine plain_commaSeparated ?_
  intro text named
  obtain ⟨id, -, rfl⟩ := List.mem_map.mp named
  exact plain.qualifiedName id

theorem marked_strictFinding (element root : DeclId) :
    Marked nameTags (pass.strictFinding element root).2.text.toList := by
  unfold strictFinding
  dsimp only
  split
  · refine Message.marked_conflict (by decide) ?_
    exact List.forall_mem_singleton.mpr (plain.decl root).marked
  · refine Message.marked_conflict (by decide) ?_
    simp only [List.forall_mem_cons]
    exact ⟨(plain_word _).marked.capitalize, (plain.decl element).marked, (plain.decl root).marked,
      List.forall_mem_nil _⟩

theorem marked_relaxedConflict? {id : DeclId} {others : List DeclId} {conflict : Conflict}
    (found : pass.relaxedConflict? id others = some conflict) :
    Marked nameTags conflict.text.toList := by
  simp only [relaxedConflict?, Option.bind_eq_bind, Option.bind_eq_some_iff] at found
  obtain ⟨target, -, found⟩ := found
  split at found
  · simp only [Option.pure_def, Option.some.injEq] at found
    subst found
    refine Message.marked_conflict (by decide) ?_
    simp only [List.forall_mem_cons]
    refine ⟨(plain.decl id).marked, (plain_packageWord ?_).marked, (plain.module _).marked,
      (pass.plain_memberNames plain _).marked, List.forall_mem_nil _⟩
    cases package : pass.target.package? pass.project with
    | none => exact List.forall_mem_nil _
    | some name => exact plain.target name package
  · simp only [Option.bind_eq_some_iff] at found
    obtain ⟨source, resident, found⟩ := found
    split at found
    · simp at found
    · simp only [Option.pure_def, Option.some.injEq] at found
      subst found
      refine Message.marked_conflict (by decide) ?_
      simp only [List.forall_mem_cons]
      refine ⟨(plain.decl id).marked, (plain_packageWord ?_).marked, (plain.module _).marked,
        (pass.plain_memberNames plain _).marked, List.forall_mem_nil _⟩
      simp only [residence?, Option.bind_eq_bind, Option.bind_eq_some_iff, Option.pure_def,
        Option.some.injEq] at resident
      obtain ⟨file, -, module, -, rfl⟩ := resident
      exact plain.file file

theorem marked_hierarchyFindings {findings : List Finding}
    (returned : pass.hierarchyFindings = .ok findings) {finding : Finding}
    (member : finding ∈ findings) : Marked nameTags finding.2.text.toList := by
  unfold hierarchyFindings at returned
  split at returned
  · obtain ⟨start, -, found⟩ := pass.mem_relaxedFindings returned member
    exact pass.marked_relaxedConflict? plain (pass.mem_startFindings.mp found).2.2
  · cases returned
    obtain ⟨element, -, -, root, -, rfl, -⟩ := pass.mem_strictFindings member
    exact pass.marked_strictFinding plain element root

end Quoted

end Pass

/-- The conflicts of a report are marked, those of sealed hierarchies if names are `quotable`. -/
def Report.IsMarked (quotable : Prop) (report : Report) : Prop :=
  ∀ finding ∈ report.findings,
    (quotable ∨ ¬ (1201 ≤ finding.2.code ∧ finding.2.code ≤ 1204)) →
      Marked nameTags finding.2.text.toList

theorem Report.isMarked_empty (quotable : Prop) : ({} : Report).IsMarked quotable :=
  List.forall_mem_nil _

theorem Pass.isMarked_of_check (pass : Pass) (html : pass.options.style = .html)
    {before after : CheckState} (returned : pass.check before = .ok after)
    (marked : before.report.IsMarked (pass.project.PlainNames pass.target)) :
    after.report.IsMarked (pass.project.PlainNames pass.target) := by
  intro finding member free
  rcases (pass.mem_findings_of_check returned).mp member with early | beyond | ⟨later, ran, found⟩
  · exact marked finding early free
  · obtain ⟨_, _, -, -, _, -, found⟩ := pass.mem_usagesBeyondModule.mp beyond
    exact pass.marked_usageBeyondModule? html found
  · rcases (pass.mem_laterFindings ran).mp found with
      ⟨reported, listed, rfl⟩ | lost | lost | foreign | ⟨hierarchies, judged, torn⟩ | clashing
    · obtain ⟨_, -, _, -, -, _, -, result⟩ := pass.mem_referencesOutOfScope.mp listed
      exact pass.marked_referenceOutOfScope? html result
    · exact pass.marked_lostUsages html lost
    · exact pass.marked_lostReferences html lost
    · exact pass.marked_foreignReferences html foreign
    · rcases free with plain | other
      · exact pass.marked_hierarchyFindings plain judged torn
      · obtain ⟨_, -, -, code⟩ := pass.mem_hierarchyFindings judged torn
        exact absurd code other
    · exact pass.marked_nameClashes html clashing

namespace Project

variable {p : Project}

theorem isMarked_of_checkElements {services : Services} {options : CheckOptions}
    (html : options.style = .html) {elements : List Element} {target : Target}
    {result : CheckResult}
    (returned : p.checkElements services options elements target = .ok result) :
    result.report.IsMarked (p.PlainNames target) := by
  refine checkElements_induction (fun _ report _ => report.IsMarked (p.PlainNames target))
    ?_ ?_ ?_ returned
  · intro _
    exact Report.isMarked_empty _
  · intro _ after checked
    exact Pass.isMarked_of_check _ html checked (Report.isMarked_empty _)
  · intro _ file _ report _ outcome marked ran
    rcases checkFile_eq_ok ran with ⟨-, rfl⟩ | ⟨after, checked, same, -⟩
    · exact marked
    · rw [same]
      exact Pass.isMarked_of_check _ html checked marked

/-- In HTML no text of a conflict holds markup beyond the tags that set off names, for every
project, request and rule of sealed hierarchies: whatever names are in it, if the conflict is not
about a sealed hierarchy, and else if no name that is quoted holds markup itself. -/
theorem plain_conflicts {services : Services} {options : CheckOptions}
    (html : options.style = .html) {request : Manifest.MoveEntry} {result : CheckResult}
    (returned : p.checkMove services options request = .ok result) :
    ∃ elements target, request.resolve p = .ok (elements, target) ∧
      ∀ finding ∈ result.report.findings,
        (p.PlainNames target ∨ ¬ (1201 ≤ finding.2.code ∧ finding.2.code ≤ 1204)) →
          Plain (withoutTags finding.2.text) := by
  obtain ⟨elements, target, resolved, checked⟩ := checkMove_eq_ok_iff.mp returned
  refine ⟨elements, target, resolved, fun finding member free => ?_⟩
  exact (isMarked_of_checkElements html checked finding member free).plain_withoutTags

/-- In one file, `Circle` inherits from the sealed class `Shape<i>`, and `draw<b>` uses that. -/
def posterCalls : List BuilderCall := [
  .module "core" .jvm,
  .directory "a" (.module ⟨0⟩ false) ⟨"a"⟩, .directory "b" (.module ⟨0⟩ false) ⟨"b"⟩,
  .file ⟨0⟩ "Shape.kt" none,
  .decl
    { name := "Shape<i>", kind := .plainClass, parent := .file ⟨0⟩, visibility := .priv,
      modality := .sealed },
  .internedType (.applied ⟨0⟩ [] false),
  .decl { name := "Circle", kind := .plainClass, parent := .file ⟨0⟩, supertypes := [⟨2⟩] },
  .decl { name := "draw<b>", kind := .function, parent := .file ⟨0⟩ },
  .referenceFrom ⟨2⟩ ⟨0⟩ {}]

def poster : Project := (Project.run? {} posterCalls).getD {}

def moveDrawnShape : Manifest.MoveEntry where
  declarations := ["a.Shape<i>"]
  target := .directory "b" none

def sightLost : Element × List Conflict :=
  (.reference ⟨0⟩, [⟨1101, .error,
    "Function <b><code>draw&lt;b&gt;()</code></b> uses class <b><code>Shape&lt;i&gt;</code></b> " ++
      "which will be inaccessible after move"⟩])

/-- What a check of `moveDrawnShape` says, given what it says about `Shape<i>` itself. -/
def posterChecked (torn : Conflict) : CheckResult where
  report := ⟨[sightLost, (.decl ⟨0⟩, [torn])]⟩
  usagesFound := 1
  usagesRemaining := [⟨⟨0⟩, ⟨0⟩, false⟩]

def tornInFile : Conflict :=
  ⟨1201, .error, "Sealed class 'Shape<i>' must be moved with all its subclasses"⟩

def tornInPackage : Conflict :=
  ⟨1203, .error, "Sealed hierarchy of 'Shape<i>' would be broken: none of its members reside in " ++
    "package 'b' of module 'core'. Hierarchy members: a.Shape<i>, a.Circle"⟩

theorem checkMove_poster :
    poster.checkMove poster.services { language := ⟨false⟩, style := .html } moveDrawnShape =
        .ok (posterChecked tornInFile) ∧
      poster.checkMove poster.services { language := ⟨true⟩, style := .html } moveDrawnShape =
        .ok (posterChecked tornInPackage) := by
  have strict : poster.checkElements poster.services { language := ⟨false⟩, style := .html }
      [.decl ⟨0⟩] (.directory ⟨1⟩ ⟨"b"⟩) = .ok (posterChecked tornInFile) := by decide +kernel
  have relaxed : poster.checkElements poster.services { language := ⟨true⟩, style := .html }
      [.decl ⟨0⟩] (.directory ⟨1⟩ ⟨"b"⟩) = .ok (posterChecked tornInPackage) := by decide +kernel
  exact ⟨checkMove_eq_ok_iff.mpr ⟨_, _, rfl, strict⟩, checkMove_eq_ok_iff.mpr ⟨_, _, rfl, relaxed⟩⟩

theorem plain_conflicts_poster :
    CheckOptions.style { language := ⟨false⟩, style := .html } = .html ∧
    poster.checkMove poster.services { language := ⟨false⟩, style := .html } moveDrawnShape =
      .ok (posterChecked tornInFile) ∧
    ∃ elements target, moveDrawnShape.resolve poster = .ok (elements, target) ∧
      ∀ finding ∈ (posterChecked tornInFile).report.findings,
        (poster.PlainNames target ∨ ¬ (1201 ≤ finding.2.code ∧ finding.2.code ≤ 1204)) →
          Plain (withoutTags finding.2.text) :=
  ⟨rfl, checkMove_poster.1, plain_conflicts rfl checkMove_poster.1⟩

/-- Under either rule, what is said of the hierarchy of `Shape<i>` holds its markup. -/
theorem sealed_names_quoted_raw :
    (∃ result, poster.checkMove poster.services { language := ⟨false⟩, style := .html }
        moveDrawnShape = .ok result ∧
      ∃ conflict ∈ result.report.conflicts, ¬ Plain (withoutTags conflict.text)) ∧
    ∃ result, poster.checkMove poster.services { language := ⟨true⟩, style := .html }
        moveDrawnShape = .ok result ∧
      ∃ conflict ∈ result.report.conflicts, ¬ Plain (withoutTags conflict.text) :=
  ⟨⟨_, checkMove_poster.1, tornInFile, .tail _ (.head _), by decide +kernel⟩,
    ⟨_, checkMove_poster.2, tornInPackage, .tail _ (.head _), by decide +kernel⟩⟩

end Project

end Relocation
