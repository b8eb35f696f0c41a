import Relocation.Proofs.Check.Request
import Relocation.Proofs.Project.Collected
set_option autoImplicit false

/-!
How many usages a request finds and leaves.

A pass over declarations takes the usages that it is given once each, and so does a pass over a file if
it drops one of them. A pass over a file that drops none hands them on as they were found. They were
found once if nothing else that is named brings declarations of the file along. So a request leaves no
usage twice, and no more than it finds, unless it names a file twice or together with a declaration
that lies in it.
-/

namespace Relocation

namespace Project

/-- No file is named twice, and none together with a declaration that lies in it. -/
structure NamedApart (p : Project) (elements : List Element) : Prop where
  files : (filesIn elements).Nodup
  decls : ∀ id, .decl id ∈ elements → ∀ file ∈ filesIn elements, p.fileOf? id ≠ some file

instance (p : Project) (elements : List Element) : Decidable (p.NamedApart elements) :=
  decidable_of_iff
    ((filesIn elements).Nodup ∧ ∀ id ∈ elements.filterMap Element.asDecl?,
      ∀ file ∈ filesIn elements, p.fileOf? id ≠ some file)
    ⟨fun apart => ⟨apart.1, fun id named => apart.2 id (Element.mem_filterMap_asDecl?.mpr named)⟩,
      fun apart => ⟨apart.files, fun id named =>
        apart.decls id (Element.mem_filterMap_asDecl?.mp named)⟩⟩

variable {p : Project}

theorem LiesIn.fileWithin_outer {id outer : DeclId} (inside : p.LiesIn (.decl id) (.decl outer))
    {steps : Nat} {file : FileId} (found : p.fileWithin steps id = some file) :
    p.fileWithin steps outer = some file := by
  have general {element : Element} (inside : p.LiesIn element (.decl outer)) :
      ∀ id, element = .decl id → p.fileWithin steps id = some file →
        p.fileWithin steps outer = some file := by
    induction inside using Relation.ReflTransGen.head_induction_on with
    | refl =>
      rintro id same found
      cases same
      exact found
    | @head element next around further inductionHypothesis =>
      rintro id rfl found
      cases steps with
      | zero => cases found
      | succ steps =>
        unfold fileWithin at found
        cases parent : (p.decl id).parent with
        | file home =>
          have next_eq : next = .file home := by simpa [around?, parent] using around.symm
          subst next_eq
          cases LiesIn.of_file further
        | decl owner =>
          have next_eq : next = .decl owner := by simpa [around?, parent] using around.symm
          rw [parent] at found
          exact inductionHypothesis owner next_eq (fileWithin_succ found)
  exact general inside id rfl found

theorem eq_of_liesIn_files {id : DeclId} {one other : FileId}
    (inOne : p.LiesIn (.decl id) (.file one)) (inOther : p.LiesIn (.decl id) (.file other)) :
    one = other := by
  have total := Relation.ReflTransGen.total_of_right_unique
    (r := fun element around => p.around? element = some around)
    (fun _ _ _ left right => Option.some.inj (left.symm.trans right)) inOne inOther
  rcases total with inside | inside
  · exact (Element.file.inj (LiesIn.of_file inside)).symm
  · exact Element.file.inj (LiesIn.of_file inside)

/-- What lies in a file is found once if the file is named once and nothing in it is named. -/
theorem NamedApart.nodup_declarationsIn (built : p.Built) {elements : List Element}
    (apart : p.NamedApart elements) {file : FileId} (named : file ∈ filesIn elements) :
    ((p.declarationsIn elements).filter fun id => p.fileOf? id == some file).Nodup := by
  rw [((declarationsIn_perm elements).filter _).nodup_iff, List.filter_flatMap]
  have elsewhere {element : Element} (listed : element ∈ elements) (other : element ≠ .file file) :
      (p.declarationsIn [element]).filter (fun id => p.fileOf? id == some file) = [] := by
    refine List.filter_eq_nil_iff.mpr fun id found inFile => ?_
    obtain ⟨outer, member, inside⟩ := built.listsChildren.liesIn_of_mem_declarationsIn found
    obtain rfl := List.mem_singleton.mp member
    rw [beq_iff_eq] at inFile
    cases outer with
    | decl root => exact apart.decls root listed file named (inside.fileWithin_outer inFile)
    | file home =>
      exact other (congrArg Element.file
        (eq_of_liesIn_files inside (liesIn_of_fileWithin inFile)))
    | reference id => cases inside.of_reference
  refine List.nodup_flatMap.mpr ⟨?_, ?_⟩
  · intro element listed
    by_cases same : element = .file file
    · subst same
      exact (built.ordered.nodup_declarationsIn_file built.listsChildren file).filter _
    · rw [elsewhere listed same]
      exact List.nodup_nil
  · refine (List.pairwise_filterMap.mp apart.files).imp_of_mem ?_
    intro one other listed otherListed different
    change ((p.declarationsIn [one]).filter _).Disjoint ((p.declarationsIn [other]).filter _)
    by_cases same : one = .file file
    · subst same
      have otherElse : other ≠ .file file := by
        rintro rfl
        exact different file rfl file rfl rfl
      rw [elsewhere otherListed otherElse]
      exact List.disjoint_nil_right _
    · rw [elsewhere listed same]
      exact List.disjoint_nil_left _

theorem NamedApart.nodup_usagesOfFile (built : p.Built) {elements : List Element}
    (apart : p.NamedApart elements) {file : FileId} (named : file ∈ filesIn elements) :
    (p.usagesOfFile (p.collectUsages p.services elements) file).Nodup := by
  unfold usagesOfFile collectUsages
  rw [List.filter_flatMap]
  refine List.nodup_flatMap.mpr ⟨?_, ?_⟩
  · intro referenced _
    apply List.Nodup.filter
    apply (p.nodup_referencesTo referenced).map
    intro one other same
    exact (Usage.mk.inj same).1
  · apply (List.pairwise_filter.mp (apart.nodup_declarationsIn built named)).imp
    intro one other different usage ofOne ofOther
    obtain ⟨fromOne, inFile⟩ := List.mem_filter.mp ofOne
    obtain ⟨fromOther, -⟩ := List.mem_filter.mp ofOther
    obtain ⟨reference, -, rfl⟩ := List.mem_map.mp fromOne
    obtain ⟨otherReference, -, same⟩ := List.mem_map.mp fromOther
    obtain ⟨-, rfl, -⟩ := Usage.mk.inj same
    exact different inFile inFile rfl

/-- A usage does not go to the pass over the declarations and to one over a file. -/
theorem NamedApart.not_mem_usagesOfDecls {elements : List Element} (apart : p.NamedApart elements)
    {file : FileId} (named : file ∈ filesIn elements) {usages : List Usage} {usage : Usage}
    (ofFile : usage ∈ p.usagesOfFile usages file) : usage ∉ p.usagesOfDecls usages elements := by
  intro ofDecls
  obtain ⟨outer, member, inside⟩ := List.any_eq_true.mp (List.mem_filter.mp ofDecls).2
  have inFile : p.fileOf? usage.referenced = some file := by
    simpa using (List.mem_filter.mp ofFile).2
  exact apart.decls outer (Element.mem_filterMap_asDecl?.mp member) file named
    ((liesIn_of_liesWithin inside).fileWithin_outer inFile)

theorem eq_of_mem_usagesOfFile {usages : List Usage} {usage : Usage} {one other : FileId}
    (ofOne : usage ∈ p.usagesOfFile usages one) (ofOther : usage ∈ p.usagesOfFile usages other) :
    one = other := by
  have inOne : p.fileOf? usage.referenced = some one := by
    simpa using (List.mem_filter.mp ofOne).2
  have inOther : p.fileOf? usage.referenced = some other := by
    simpa using (List.mem_filter.mp ofOther).2
  exact Option.some.inj (inOne.symm.trans inOther)

end Project

theorem Pass.usages_of_check {pass : Pass} {usages : List Usage} {report : Report}
    {after : CheckState} (checked : pass.check (.ofUsages usages report) = .ok after) :
    after.usages.Nodup ∧ after.usages ⊆ usages := by
  obtain ⟨alone, -, account⟩ := pass.accounted_of_check checked
  exact ⟨account.nodup_usages, fun usage left => ((account.mem_usages pass usage).mp left).1⟩

theorem usages_of_checkFile {p : Project} {services : Services} {options : CheckOptions}
    {target : Target} {moving : List Element} {file : FileId} {usages : List Usage}
    {report : Report} {result : Report × Option (List Usage)}
    (returned : checkFile p services options target moving file usages report = .ok result) :
    (usages.Nodup → (result.2.getD usages).Nodup) ∧ result.2.getD usages ⊆ usages := by
  by_cases declares : p.topLevel file = []
  · obtain rfl : result = (report, none) := by
      simpa [checkFile, declares] using returned.symm
    exact ⟨id, fun usage left => left⟩
  · obtain ⟨alone, after, -, -, account⟩ := Pass.fileAccounted_of_checkFile declares returned
    cases told : result.2 with
    | none => exact ⟨id, fun usage left => left⟩
    | some left =>
      obtain ⟨-, once, listed⟩ := account.survivors left told
      exact ⟨fun _ => once, fun usage member => ((listed usage).mp member).1⟩

namespace Project

variable {p : Project} {options : CheckOptions} {elements : List Element} {target : Target}
  {result : CheckResult}

theorem usagesFound_of_checkElements {services : Services}
    (returned : p.checkElements services options elements target = .ok result) :
    result.usagesFound = (p.collectUsages services elements).length := by
  unfold checkElements at returned
  dsimp only at returned
  split at returned
  · obtain ⟨_, -, returned⟩ := bind_eq_ok.mp returned
    obtain ⟨last, -, done⟩ := bind_eq_ok.mp returned
    cases done
    rfl
  · obtain ⟨after, -, returned⟩ := bind_eq_ok.mp returned
    obtain ⟨_, -, returned⟩ := bind_eq_ok.mp returned
    obtain ⟨last, -, done⟩ := bind_eq_ok.mp returned
    cases done
    rfl

theorem usagesRemaining_subset {services : Services}
    (returned : p.checkElements services options elements target = .ok result) :
    result.usagesRemaining ⊆ p.collectUsages services elements := by
  refine checkElements_induction
    (fun _ _ remaining => remaining ⊆ p.collectUsages services elements)
    (fun _ => List.nil_subset _) ?_ ?_ returned
  · intro _ after checked usage left
    exact (List.mem_filter.mp ((Pass.usages_of_check checked).2 left)).1
  · intro _ file _ report remaining outcome earlier ran usage left
    rcases List.mem_append.mp left with before | here
    · exact earlier before
    · exact (List.mem_filter.mp ((usages_of_checkFile ran).2 here)).1

theorem nodup_usagesRemaining (built : p.Built) (apart : p.NamedApart elements)
    (returned : p.checkElements p.services options elements target = .ok result) :
    result.usagesRemaining.Nodup := by
  -- Each usage is left by the pass that it went to, so passes over different files share none.
  have whole := checkElements_induction (fun checked _ remaining => checked.Nodup →
    remaining.Nodup ∧ ∀ usage ∈ remaining,
      usage ∈ p.usagesOfDecls (p.collectUsages p.services elements) elements ∨
        ∃ file ∈ checked, usage ∈ p.usagesOfFile (p.collectUsages p.services elements) file)
    ?unnamed ?named ?file returned
  case unnamed =>
    intro _ _
    exact ⟨List.nodup_nil, nofun⟩
  case named =>
    intro _ after checked _
    obtain ⟨once, given⟩ := Pass.usages_of_check checked
    exact ⟨once, fun usage left => Or.inl (given left)⟩
  case file =>
    intro checked file named report remaining outcome earlier ran distinct
    obtain ⟨before, -, different⟩ := List.nodup_append.mp distinct
    obtain ⟨once, origin⟩ := earlier before
    obtain ⟨here, given⟩ := usages_of_checkFile ran
    refine ⟨once.append (here (apart.nodup_usagesOfFile built named)) ?_, ?_⟩
    · intro usage left again
      rcases origin usage left with ofDecls | ⟨other, listed, ofOther⟩
      · exact apart.not_mem_usagesOfDecls named (given again) ofDecls
      · rw [eq_of_mem_usagesOfFile ofOther (given again)] at listed
        exact different file listed file (List.mem_singleton_self file) rfl
    · intro usage left
      rcases List.mem_append.mp left with past | new
      · rcases origin usage past with ofDecls | ⟨other, listed, ofOther⟩
        · exact Or.inl ofDecls
        · exact Or.inr ⟨other, List.mem_append_left _ listed, ofOther⟩
      · exact Or.inr ⟨file, List.mem_append_right _ (List.mem_singleton_self file), given new⟩
  exact (whole apart.files).1

/-- All usages that are left have been found. None is left twice, and no more are left than were
found, if no file is named twice or together with a declaration that lies in it. -/
theorem usages_add_up (built : p.Built) {request : Manifest.MoveEntry}
    (resolved : request.resolve p = .ok (elements, target))
    (returned : p.checkMove p.services options request = .ok result) :
    result.usagesFound = (p.collectUsages p.services elements).length ∧
      result.usagesRemaining ⊆ p.collectUsages p.services elements ∧
      (p.NamedApart elements → result.usagesRemaining.Nodup ∧
        result.usagesRemaining.length ≤ result.usagesFound) := by
  obtain ⟨elements', target', resolved', checked⟩ := checkMove_eq_ok_iff.mp returned
  rw [resolved] at resolved'
  cases resolved'
  have found := usagesFound_of_checkElements checked
  have listed := usagesRemaining_subset checked
  refine ⟨found, listed, fun apart => ?_⟩
  have once := nodup_usagesRemaining built apart checked
  rw [found]
  exact ⟨once, once.length_le_of_subset listed⟩

/-- `draw` of package `b` refers to the class `Shape` of package `a` and to its member `area`. -/
def drawingCalls : List BuilderCall := [
  .module "core" .jvm,
  .directory "a" (.module ⟨0⟩ false) ⟨"a"⟩, .directory "b" (.module ⟨0⟩ false) ⟨"b"⟩,
  .directory "c" (.module ⟨0⟩ false) ⟨"c"⟩,
  .file ⟨0⟩ "Shape.kt" none, .file ⟨1⟩ "Draw.kt" none,
  .decl { name := "Shape", kind := .plainClass, parent := .file ⟨0⟩ },
  .decl { name := "area", kind := .function, parent := .decl ⟨0⟩ },
  .decl { name := "draw", kind := .function, parent := .file ⟨1⟩ },
  .referenceFrom ⟨2⟩ ⟨0⟩ {}, .referenceFrom ⟨2⟩ ⟨1⟩ {}]

def drawing : Project := (run? {} drawingCalls).getD {}

theorem built_drawing : drawing.Built := ⟨drawingCalls, rfl⟩

def moveShapeWithFile : Manifest.MoveEntry where
  declarations := ["a.Shape"]
  files := ["a/Shape.kt"]
  target := .directory "b" none

def moveFileTwice : Manifest.MoveEntry where
  files := ["a/Shape.kt", "a/Shape.kt"]
  target := .directory "b" none

/-- A class and its file, or the file twice, leave the usages of each pass one after the other, those
of a file as often as they were found. -/
theorem usages_counted_again : drawing.Built ∧ ∃ one other,
    drawing.checkMove drawing.services {} moveShapeWithFile = .ok one ∧
    drawing.checkMove drawing.services {} moveFileTwice = .ok other ∧
    ¬ one.usagesRemaining.Nodup ∧ one.usagesFound < one.usagesRemaining.length ∧
    ¬ other.usagesRemaining.Nodup ∧
    other.usagesFound < other.usagesRemaining.length := by
  have withFile : drawing.checkElements drawing.services {} [.decl ⟨0⟩, .file ⟨0⟩]
      (.directory ⟨1⟩ ⟨"b"⟩) = .ok {
        report := {}
        usagesFound := 4
        usagesRemaining := [⟨⟨0⟩, ⟨0⟩, false⟩, ⟨⟨1⟩, ⟨1⟩, false⟩, ⟨⟨0⟩, ⟨0⟩, false⟩,
          ⟨⟨0⟩, ⟨0⟩, false⟩, ⟨⟨1⟩, ⟨1⟩, false⟩, ⟨⟨1⟩, ⟨1⟩, false⟩] } := by decide +kernel
  have twice : drawing.checkElements drawing.services {} [.file ⟨0⟩, .file ⟨0⟩]
      (.directory ⟨1⟩ ⟨"b"⟩) = .ok {
        report := {}
        usagesFound := 4
        usagesRemaining := [⟨⟨0⟩, ⟨0⟩, false⟩, ⟨⟨0⟩, ⟨0⟩, false⟩, ⟨⟨1⟩, ⟨1⟩, false⟩,
          ⟨⟨1⟩, ⟨1⟩, false⟩, ⟨⟨0⟩, ⟨0⟩, false⟩, ⟨⟨0⟩, ⟨0⟩, false⟩, ⟨⟨1⟩, ⟨1⟩, false⟩,
          ⟨⟨1⟩, ⟨1⟩, false⟩] } := by decide +kernel
  refine ⟨built_drawing, _, _, checkMove_eq_ok_iff.mpr ⟨_, _, rfl, withFile⟩,
    checkMove_eq_ok_iff.mpr ⟨_, _, rfl, twice⟩, ?_⟩
  decide

/-- Names the class twice, and one of its members beside it, and the file of what refers to both. -/
def moveShapeTwice : Manifest.MoveEntry where
  declarations := ["a.Shape", "a.Shape.area", "a.Shape"]
  files := ["b/Draw.kt"]
  target := .directory "c" none

theorem add_up_moveShapeTwice :
    (drawing.Built ∧ moveShapeTwice.resolve drawing =
        .ok ([.decl ⟨0⟩, .decl ⟨1⟩, .decl ⟨0⟩, .file ⟨1⟩], .directory ⟨2⟩ ⟨"c"⟩) ∧
      drawing.NamedApart [.decl ⟨0⟩, .decl ⟨1⟩, .decl ⟨0⟩, .file ⟨1⟩]) ∧
    ∃ result, drawing.checkMove drawing.services {} moveShapeTwice = .ok result ∧
      result.usagesFound = 5 ∧ result.usagesRemaining.Nodup ∧
      result.usagesRemaining.length ≤ result.usagesFound := by
  have resolved : moveShapeTwice.resolve drawing =
      .ok ([.decl ⟨0⟩, .decl ⟨1⟩, .decl ⟨0⟩, .file ⟨1⟩], .directory ⟨2⟩ ⟨"c"⟩) := rfl
  have apart : drawing.NamedApart [.decl ⟨0⟩, .decl ⟨1⟩, .decl ⟨0⟩, .file ⟨1⟩] := by decide
  have checked : drawing.checkElements drawing.services {}
      [.decl ⟨0⟩, .decl ⟨1⟩, .decl ⟨0⟩, .file ⟨1⟩] (.directory ⟨2⟩ ⟨"c"⟩) = .ok {
        report := {}
        usagesFound := 5
        usagesRemaining := [⟨⟨0⟩, ⟨0⟩, true⟩, ⟨⟨1⟩, ⟨1⟩, true⟩] } := by decide +kernel
  have returned := checkMove_eq_ok_iff.mpr ⟨_, _, resolved, checked⟩
  have counted := usages_add_up built_drawing resolved returned
  exact ⟨⟨built_drawing, resolved, apart⟩, _, returned, rfl, counted.2.2 apart⟩

end Project

end Relocation
