import Mathlib.Data.List.Permutation
import Relocation.Project.Build
import Relocation.Proofs.Check.Run
import Relocation.Proofs.Project.Inside
import Relocation.Proofs.Sealed.Limit
set_option autoImplicit false

/-!
The order in which declarations are named.

A sealed hierarchy is judged at the class where a pass enters it, and the verdict depends on where
that class lives: it does not count as another member at the target, and only what stays where it
comes from is left behind. So another order of the same declarations gives the same verdict if it
puts a class first that stands alike in these two respects.
-/

namespace Relocation.Pass

variable {pass : Pass}

variable (pass) in
/-- A class that moves to another package or module than its own and leaves some of its hierarchy
behind where it comes from. -/
def LeavesBehind (id : DeclId) (target : Residence) : Prop :=
  ∃ source, pass.residence? id = some source ∧
    ¬ (target.package = source.package ∧ target.module = source.module) ∧
    ∃ other, pass.project.Companion id other ∧ pass.residence? other = some source ∧
      pass.isMoving (.decl other) = false

variable (pass) in
/-- The verdict against the hierarchy of `id` if it is entered there: something stays, and either
nothing of it is at the target or something is left behind. -/
def TornFrom (id : DeclId) : Prop :=
  (∃ other, pass.project.Companion id other ∧ pass.isMoving (.decl other) = false) ∧
    ∃ target, pass.targetResidence? = some target ∧
      ((∀ other, pass.project.Companion id other → pass.residence? other ≠ some target) ∨
        pass.LeavesBehind id target)

theorem tornFrom_iff {id : DeclId} {others : List DeclId}
    (all : ∀ other, other ∈ others ↔ pass.project.Companion id other) :
    pass.TornFrom id ↔ (∃ other ∈ others, pass.isMoving (.decl other) = false) ∧
      (pass.relaxedConflict? id others).isSome = true := by
  simp only [isSome_relaxedConflict?, all]
  rfl

/-- What the walk from a class finds is the verdict against its hierarchy from there. -/
theorem exists_startFindings {before : List DeclId} {entry : DeclId}
    (finds : Finds pass before entry) :
    (∃ finding, finding ∈ pass.startFindings (before, entry)) ↔ pass.TornFrom entry := by
  rw [tornFrom_iff fun other => finds.mem_othersFrom_iff]
  constructor
  · rintro ⟨finding, found⟩
    obtain ⟨-, stays, conflict⟩ := pass.mem_startFindings.mp found
    exact ⟨stays, by simp [conflict]⟩
  · rintro ⟨stays, torn⟩
    obtain ⟨conflict, found⟩ := Option.isSome_iff_exists.mp torn
    exact ⟨(.decl entry, conflict), pass.mem_startFindings.mpr ⟨rfl, stays, found⟩⟩

theorem exists_finding_about_iff {id : DeclId} (search : pass.services = pass.project.services)
    (walkable : pass.project.Walkable id)
    (relaxed : pass.options.language.sealedInheritorsInSamePackage = true)
    {findings : List Finding} (returned : pass.hierarchyFindings = .ok findings) :
    (∃ finding ∈ findings, pass.project.IsAbout id finding) ↔
      ∃ entry, pass.project.Enters pass.elements id entry ∧ pass.TornFrom entry := by
  constructor
  · rintro ⟨finding, member, about⟩
    obtain ⟨before, entry, entered, finds, all⟩ :=
      findings_about search walkable relaxed returned member about
    exact ⟨entry, entered, (exists_startFindings finds).mp ⟨finding, all finding member about⟩⟩
  · rintro ⟨entry, entered, torn⟩
    have inside : pass.project.SameHierarchy id entry := entered.sameHierarchy
    have joined : pass.project.Joined id := by
      obtain ⟨other, companion, -⟩ := torn.1
      exact inside.symm.joined (companion.same.joined_of_ne companion.ne)
    obtain ⟨earlier, before, later, split, finds, -⟩ := walkStarts_of_enters search walkable joined
      List.nodup_nil (fun member known => nomatch known) entered
    obtain ⟨finding, found⟩ := (exists_startFindings finds).mpr torn
    refine ⟨finding, (mem_findings_iff relaxed returned).mpr ⟨(before, entry), ?_, found⟩,
      entry, (pass.mem_startFindings.mp found).1, inside⟩
    rw [split]
    exact List.mem_append_right _ (List.mem_cons_self ..)

variable (pass) in
/-- Two classes that stand alike towards the target: both live there as source classes or neither
does, and both leave something behind or neither does. -/
structure Alike (one other : DeclId) (target : Residence) : Prop where
  present : (pass.project.decl one).language = .source ∧ pass.residence? one = some target ↔
    (pass.project.decl other).language = .source ∧ pass.residence? other = some target
  leaves : pass.LeavesBehind one target ↔ pass.LeavesBehind other target

theorem Alike.symm {one other : DeclId} {target : Residence} (alike : pass.Alike one other target) :
    pass.Alike other one target :=
  ⟨alike.present.symm, alike.leaves.symm⟩

/-- Classes of one language that live in one place and move both stand alike. -/
theorem alike_of_residence {one other : DeclId}
    (same : pass.project.SameHierarchy one other)
    (language : (pass.project.decl one).language = (pass.project.decl other).language)
    (residence : pass.residence? one = pass.residence? other)
    (oneMoves : pass.isMoving (.decl one) = true)
    (otherMoves : pass.isMoving (.decl other) = true) (target : Residence) :
    pass.Alike one other target := by
  have carry {one other : DeclId} (same : pass.project.SameHierarchy one other)
      (residence : pass.residence? one = pass.residence? other)
      (otherMoves : pass.isMoving (.decl other) = true)
      (leaves : pass.LeavesBehind one target) : pass.LeavesBehind other target := by
    obtain ⟨source, lives, away, left, companion, there, stays⟩ := leaves
    have ne : left ≠ other := by
      rintro rfl
      rw [otherMoves] at stays
      cases stays
    exact ⟨source, residence ▸ lives, away, left,
      ⟨same.symm.trans companion.same, companion.source, ne⟩, there, stays⟩
  exact {
    present := by rw [language, residence]
    leaves := ⟨carry same residence otherMoves, carry same.symm residence.symm oneMoves⟩ }

theorem TornFrom.of_alike {one other : DeclId} (torn : pass.TornFrom one)
    (same : pass.project.SameHierarchy one other)
    (otherMoves : pass.isMoving (.decl other) = true)
    (alike : ∀ target, pass.targetResidence? = some target → pass.Alike one other target) :
    pass.TornFrom other := by
  obtain ⟨⟨staying, companion, stays⟩, target, lives, torn⟩ := torn
  have away : staying ≠ other := by
    rintro rfl
    rw [otherMoves] at stays
    cases stays
  refine ⟨⟨staying, ⟨same.symm.trans companion.same, companion.source, away⟩, stays⟩,
    target, lives, torn.imp ?_ (alike target lives).leaves.mp⟩
  -- A member at the target could only be the other class, which then would be there itself.
  intro nobody member found present
  by_cases isOne : member = one
  · subst member
    obtain ⟨source, there⟩ := (alike target lives).present.mp ⟨found.source, present⟩
    exact nobody other ⟨same, source, Ne.symm found.ne⟩ there
  · exact nobody member ⟨same.trans found.same, found.source, isOne⟩ present

theorem tornFrom_iff_of_alike {one other : DeclId}
    (same : pass.project.SameHierarchy one other)
    (oneMoves : pass.isMoving (.decl one) = true)
    (otherMoves : pass.isMoving (.decl other) = true)
    (alike : (∃ member, pass.project.SameHierarchy one member ∧
        (pass.project.decl member).language = .source ∧ pass.isMoving (.decl member) = false) →
      ∀ target, pass.targetResidence? = some target → pass.Alike one other target) :
    pass.TornFrom one ↔ pass.TornFrom other := by
  constructor
  · intro torn
    obtain ⟨member, companion, stays⟩ := torn.1
    exact torn.of_alike same otherMoves
      (alike ⟨member, companion.same, companion.source, stays⟩)
  · intro torn
    obtain ⟨member, companion, stays⟩ := torn.1
    have alike := alike ⟨member, same.trans companion.same, companion.source, stays⟩
    exact torn.of_alike same.symm oneMoves fun target lives => (alike target lives).symm

section Orders

variable {p : Project} {options : CheckOptions} {target : Target} {first second : List DeclId}
  {id : DeclId}

theorem isMoving_ofDecls_of_perm (same : first.Perm second) (element : Element) :
    (ofDecls p p.services options target first).isMoving element =
      (ofDecls p p.services options target second).isMoving element :=
  (same.map Element.decl).any_eq

theorem tornFrom_ofDecls_of_perm (same : first.Perm second) (entry : DeclId) :
    (ofDecls p p.services options target first).TornFrom entry ↔
      (ofDecls p p.services options target second).TornFrom entry := by
  have moving (element : Element) :
      (ofDecls p p.services options target first).isMoving element =
        (ofDecls p p.services options target second).isMoving element :=
    isMoving_ofDecls_of_perm same element
  simp only [TornFrom, LeavesBehind, moving]
  rfl

theorem isMoving_of_enters {entry : DeclId} (entered : p.Enters first id entry) :
    (ofDecls p p.services options target first).isMoving (.decl entry) = true :=
  Project.isInside_of_mem (List.mem_map_of_mem entered.mem)

theorem exists_torn_iff (walkable : p.Walkable id)
    (relaxed : options.language.sealedInheritorsInSamePackage = true) {usages : List Usage}
    {after : CheckState}
    (returned : (ofDecls p p.services options target first).check (.ofUsages usages {}) =
      .ok after) :
    (∃ finding ∈ after.report.torn, p.IsAbout id finding) ↔
      ∃ entry, p.Enters first id entry ∧
        (ofDecls p p.services options target first).TornFrom entry := by
  obtain ⟨findings, found⟩ := (check_returns_iff _ _).mp ⟨after, returned⟩
  simp only [mem_torn_iff_of_first_check relaxed found returned]
  exact exists_finding_about_iff rfl walkable relaxed found

/-- The verdict against a hierarchy is that from the class at which the pass enters it. -/
theorem verdict_in_any_order (walkable : p.Walkable id)
    (relaxed : options.language.sealedInheritorsInSamePackage = true)
    (same : first.Perm second) {usages others : List Usage} {one other : CheckState}
    (oneReturned : (ofDecls p p.services options target first).check (.ofUsages usages {}) =
      .ok one)
    (otherReturned : (ofDecls p p.services options target second).check (.ofUsages others {}) =
      .ok other)
    (alike : (∃ member, p.SameHierarchy id member ∧ (p.decl member).language = .source ∧
        p.isInside (first.map .decl) (.decl member) = false) →
      ∀ oneEntry otherEntry residence, p.Enters first id oneEntry → p.Enters second id otherEntry →
        (ofDecls p p.services options target first).targetResidence? = some residence →
        (ofDecls p p.services options target first).Alike oneEntry otherEntry residence) :
    (∃ finding ∈ one.report.torn, p.IsAbout id finding) ↔
      ∃ finding ∈ other.report.torn, p.IsAbout id finding := by
  rw [exists_torn_iff walkable relaxed oneReturned, exists_torn_iff walkable relaxed otherReturned]
  simp only [← tornFrom_ofDecls_of_perm same]
  have verdict {oneEntry otherEntry : DeclId} (oneEntered : p.Enters first id oneEntry)
      (otherEntered : p.Enters second id otherEntry) :
      (ofDecls p p.services options target first).TornFrom oneEntry ↔
        (ofDecls p p.services options target first).TornFrom otherEntry := by
    have inside := oneEntered.sameHierarchy
    refine tornFrom_iff_of_alike (inside.symm.trans otherEntered.sameHierarchy)
      (isMoving_of_enters oneEntered) ?_ ?_
    · rw [isMoving_ofDecls_of_perm same]
      exact isMoving_of_enters otherEntered
    · rintro ⟨member, reached, source, stays⟩ residence lives
      exact alike ⟨member, inside.trans reached, source, stays⟩ oneEntry otherEntry residence
        oneEntered otherEntered lives
  constructor
  · rintro ⟨entry, entered, torn⟩
    obtain ⟨otherEntry, otherEntered⟩ := entered.of_perm same
    exact ⟨otherEntry, otherEntered, (verdict entered otherEntered).mp torn⟩
  · rintro ⟨entry, entered, torn⟩
    obtain ⟨oneEntry, oneEntered⟩ := entered.of_perm same.symm
    exact ⟨oneEntry, oneEntered, (verdict oneEntered entered).mpr torn⟩

end Orders

/-- Shapes in three packages. The sealed interface and a disc are in `a`, a circle and a class of the
host language in `b`, and a square in `c`. -/
def spread : Project :=
  let p := ({} : Project).addModule "core" .jvm
  let p := p.addDirectory "a" (.module ⟨0⟩ false) ⟨"a"⟩
  let p := p.addDirectory "b" (.module ⟨0⟩ false) ⟨"b"⟩
  let p := p.addDirectory "c" (.module ⟨0⟩ false) ⟨"c"⟩
  let p := ((p.addFile ⟨0⟩ "Shape.kt" none).addFile ⟨1⟩ "Circle.kt" none).addFile ⟨2⟩ "Square.kt" none
  let p := p.addFile ⟨1⟩ "Rune.java" none
  let p := p.addDecl
    { name := "Shape", kind := .interface, parent := .file ⟨0⟩, modality := .sealed }
  let (shape, p) := p.classType ⟨0⟩
  let p := p.addDecl
    { name := "Disc", kind := .plainClass, parent := .file ⟨0⟩, supertypes := [shape] }
  let p := p.addDecl
    { name := "Circle", kind := .plainClass, parent := .file ⟨1⟩, supertypes := [shape] }
  let p := p.addDecl
    { name := "Square", kind := .plainClass, parent := .file ⟨2⟩, supertypes := [shape] }
  p.addDecl
    { name := "Rune", kind := .plainClass, parent := .file ⟨3⟩, supertypes := [shape],
      language := .host }

theorem walkable_spread (id : DeclId) : spread.Walkable id where
  upwards := by
    have direct : ∀ member ∈ spread.declIds, ∀ parent ∈ spread.supertypeDecls member,
        spread.superclass? member = some parent ∨ (spread.decl parent).kind = .interface := by
      decide +kernel
    intro member _ parent declared _
    exact direct member (Project.mem_declIds_of_supertype declared) parent declared
  limited := Project.length_le_of_size_le (by decide +kernel) id

theorem sameHierarchy_spread {id : DeclId} (declared : id ∈ spread.declIds) :
    spread.SameHierarchy ⟨0⟩ id := by
  have linked : ∀ id ∈ spread.declIds, id = ⟨0⟩ ∨ spread.Linked ⟨0⟩ id := by decide +kernel
  rcases linked id declared with rfl | linked
  · exact .refl _
  · exact .of_linked linked

def spreadOthers (id : DeclId) : List DeclId :=
  spread.declIds.filter fun other => (spread.decl other).language == .source && other != id

theorem mem_spreadOthers {id : DeclId} (declared : id ∈ spread.declIds) (other : DeclId) :
    other ∈ spreadOthers id ↔ spread.Companion id other := by
  simp only [spreadOthers, List.mem_filter, Bool.and_eq_true, beq_iff_eq, bne_iff_ne]
  constructor
  · rintro ⟨otherDeclared, source, ne⟩
    have same := (sameHierarchy_spread declared).symm.trans (sameHierarchy_spread otherDeclared)
    exact ⟨same, source, ne⟩
  · rintro ⟨same, source, ne⟩
    exact ⟨same.inside.resolve_left ne, source, ne⟩

def moveSpread (elements : List DeclId) : Pass :=
  .ofDecls spread spread.services {} (.directory ⟨1⟩ ⟨"b"⟩) elements

theorem verdict_spread (entry : DeclId) (declared : entry ∈ spread.declIds)
    (rest : List DeclId) :
    ∃ after, (moveSpread (entry :: rest)).check (.ofUsages [] {}) = .ok after ∧
      ((∃ finding ∈ after.report.torn, spread.IsAbout ⟨0⟩ finding) ↔
        (∃ other ∈ spreadOthers entry,
          (moveSpread (entry :: rest)).isMoving (.decl other) = false) ∧
        ((moveSpread (entry :: rest)).relaxedConflict? entry (spreadOthers entry)).isSome = true) := by
  have company : ∀ id, spread.Joined id → ∃ other, spread.Companion id other := by
    have others : ∀ id ∈ spread.declIds, spreadOthers id ≠ [] := by decide +kernel
    rintro id ⟨_, linked⟩
    obtain ⟨other, member⟩ := List.exists_mem_of_ne_nil _ (others id linked.inside.1)
    exact ⟨other, (mem_spreadOthers linked.inside.1 other).mp member⟩
  have returns : ∃ findings, (moveSpread (entry :: rest)).hierarchyFindings = .ok findings :=
    returns_of_companions rfl rfl walkable_spread company
  obtain ⟨after, returned⟩ := (check_returns_iff _ (.ofUsages [] {})).mpr returns
  have classLike : ∀ id ∈ spread.declIds, (spread.decl id).kind.isClassLike = true := by
    decide +kernel
  refine ⟨after, returned, ?_⟩
  rw [exists_torn_iff (walkable_spread ⟨0⟩) rfl returned]
  simp only [Project.enters_cons_iff (classLike entry declared) (sameHierarchy_spread declared),
    exists_eq_left]
  exact tornFrom_iff (mem_spreadOthers declared)

/-- Only the first of two runs finds the hierarchy torn. -/
def OnlyFirst (p : Project) (id : DeclId) (one other : Pass) : Prop :=
  ∃ oneAfter otherAfter, one.check (.ofUsages [] {}) = .ok oneAfter ∧
    other.check (.ofUsages [] {}) = .ok otherAfter ∧
    (∃ finding ∈ oneAfter.report.torn, p.IsAbout id finding) ∧
    ¬ ∃ finding ∈ otherAfter.report.torn, p.IsAbout id finding

theorem onlyFirst_of_findings {p : Project} {id : DeclId} {one other : Pass}
    (oneRelaxed : one.options.language.sealedInheritorsInSamePackage = true)
    (otherRelaxed : other.options.language.sealedInheritorsInSamePackage = true)
    (torn : ∃ finding, one.FindsTorn finding ∧ finding.1 = .decl id)
    (nothing : other.hierarchyFindings = .ok []) : OnlyFirst p id one other := by
  obtain ⟨finding, ⟨findings, found, member⟩, key⟩ := torn
  obtain ⟨oneAfter, oneReturned⟩ := (check_returns_iff _ (.ofUsages [] {})).mpr ⟨_, found⟩
  obtain ⟨otherAfter, otherReturned⟩ := (check_returns_iff _ (.ofUsages [] {})).mpr ⟨_, nothing⟩
  refine ⟨oneAfter, otherAfter, oneReturned, otherReturned, ⟨finding, ?_, id, key, .refl _⟩, ?_⟩
  · exact (mem_torn_iff_of_first_check oneRelaxed found oneReturned).mpr member
  · rintro ⟨_, listed, -⟩
    cases (mem_torn_iff_of_first_check otherRelaxed nothing otherReturned).mp listed

/-- Classes with two sealed superclasses, of which a walk asks for the first only. One of the classes
is in the same package but in another directory. -/
def forkedAway : Project :=
  let p := ({} : Project).addModule "core" .jvm
  let p := p.addDirectory "a" (.module ⟨0⟩ false) ⟨"a"⟩
  let p := p.addDirectory "d" (.module ⟨0⟩ false) ⟨"a"⟩
  let p := (p.addFile ⟨0⟩ "All.kt" none).addFile ⟨1⟩ "Other.kt" none
  let p := p.addDecl
    { name := "Left", kind := .plainClass, parent := .file ⟨0⟩, modality := .sealed }
  let p := p.addDecl
    { name := "Right", kind := .plainClass, parent := .file ⟨0⟩, modality := .sealed }
  let (left, p) := p.classType ⟨0⟩
  let (right, p) := p.classType ⟨1⟩
  let p := p.addDecl
    { name := "Both", kind := .plainClass, parent := .file ⟨0⟩, supertypes := [left, right] }
  p.addDecl { name := "Other", kind := .plainClass, parent := .file ⟨1⟩, supertypes := [right] }

def moveForkedAway (elements : List DeclId) : Pass :=
  .ofDecls forkedAway forkedAway.services {} (.directory ⟨1⟩ ⟨"a"⟩) elements

/-- From `Both` the walk comes to `Left` only, and from `Right` to all classes. -/
theorem hierarchyFindings_forkedAway :
    (∃ finding, (moveForkedAway [⟨2⟩, ⟨1⟩]).FindsTorn finding ∧ finding.1 = .decl ⟨2⟩) ∧
      (moveForkedAway [⟨1⟩, ⟨2⟩]).hierarchyFindings = .ok [] := by
  constructor
  · have first : (moveForkedAway [⟨2⟩, ⟨1⟩]).hierarchyMembers [] ⟨2⟩ = ([⟨2⟩, ⟨0⟩], [⟨0⟩, ⟨2⟩]) := by
      cbv
    have fromBoth : (moveForkedAway [⟨2⟩, ⟨1⟩]).othersFrom [] ⟨2⟩ = [⟨0⟩] := by cbv
    have fromRight : (moveForkedAway [⟨2⟩, ⟨1⟩]).othersFrom [⟨0⟩, ⟨2⟩] ⟨1⟩ = [⟨3⟩] := by cbv
    have walks : (moveForkedAway [⟨2⟩, ⟨1⟩]).walkStarts [] [⟨2⟩, ⟨1⟩] =
        [([], ⟨2⟩), ([⟨0⟩, ⟨2⟩], ⟨1⟩)] := by
      rw [walkStarts_of_new [⟨1⟩] rfl List.not_mem_nil (by cbv), first]
      rw [walkStarts_of_new [] rfl (by decide) (by cbv)]
      rfl
    exact findsTorn_of_start rfl walks (by simp [fromBoth, fromRight]) (List.mem_cons_self ..)
      fromBoth (by decide +kernel) (by decide +kernel)
  · have first : (moveForkedAway [⟨1⟩, ⟨2⟩]).hierarchyMembers [] ⟨1⟩ =
        ([⟨1⟩, ⟨2⟩, ⟨0⟩, ⟨3⟩], [⟨3⟩, ⟨0⟩, ⟨2⟩, ⟨1⟩]) := by cbv
    have others : (moveForkedAway [⟨1⟩, ⟨2⟩]).othersFrom [] ⟨1⟩ = [⟨2⟩, ⟨0⟩, ⟨3⟩] := by
      rw [othersFrom, first]
      rfl
    have walks : (moveForkedAway [⟨1⟩, ⟨2⟩]).walkStarts [] [⟨1⟩, ⟨2⟩] = [([], ⟨1⟩)] := by
      rw [walkStarts_of_new [⟨2⟩] rfl List.not_mem_nil (by cbv), first]
      rfl
    rw [hierarchyFindings_of_starts rfl walks (by simp [others])]
    simp only [List.flatMap_singleton, startFindings, others]
    decide +kernel

theorem onlyFirst_forkedAway :
    OnlyFirst forkedAway ⟨2⟩ (moveForkedAway [⟨2⟩, ⟨1⟩]) (moveForkedAway [⟨1⟩, ⟨2⟩]) :=
  onlyFirst_of_findings rfl rfl hierarchyFindings_forkedAway.1 hierarchyFindings_forkedAway.2

def moveChain (n : Nat) (elements : List DeclId) : Pass :=
  .ofDecls (.chain n) (Project.chain n).services {} (.directory ⟨1⟩ ⟨"b"⟩) elements

section Chain

variable {n : Nat} (full : hierarchyLimit = n)
include full

/-- From the last class the walk does not come to the second one, which is at the target. -/
theorem findsTorn_moveChain :
    ∃ finding, (moveChain n [⟨n + 1⟩, ⟨0⟩, ⟨n⟩]).FindsTorn finding ∧ finding.1 = .decl ⟨n + 1⟩ := by
  have large := Project.two_lt_of_full full
  have inside : ∀ id ∈ [(⟨n⟩ : DeclId)], id.index < n + 2 := by simp
  have along : (moveChain n [⟨n + 1⟩, ⟨0⟩, ⟨n⟩]).project = .chain n := rfl
  obtain ⟨seen, walks, fromLast, fromFirst⟩ := walks_downwards along rfl full inside
  have third : ⟨2⟩ ∈ (moveChain n [⟨n + 1⟩, ⟨0⟩, ⟨n⟩]).othersFrom [] ⟨n + 1⟩ :=
    (fromLast ⟨2⟩).mpr ⟨Nat.lt_succ_self 1, by simp only; omega⟩
  have stays : (moveChain n [⟨n + 1⟩, ⟨0⟩, ⟨n⟩]).isMoving (.decl ⟨2⟩) = false := by
    rw [← Bool.not_eq_true]
    refine (Project.isInside_chain (by simp only; omega)).not.mpr ?_
    simp [moveChain, ofDecls]
    omega
  refine findsTorn_of_start rfl walks (by simp [List.ne_nil_of_mem third, fromFirst])
    (List.mem_cons_self ..) rfl ⟨⟨2⟩, third, stays⟩
    (isSome_relaxedConflict?.mpr ⟨_, rfl, Or.inl fun other member => ?_⟩)
  have := (fromLast other).mp member
  rw [residence?_chain rfl (by omega), Ne, Option.some.injEq]
  exact (Project.chainResidence_eq_second (by omega)).not.mpr (by omega)

theorem hierarchyFindings_moveChain :
    (moveChain n [⟨0⟩, ⟨n + 1⟩, ⟨n⟩]).hierarchyFindings = .ok [] := by
  have large := Project.two_lt_of_full full
  have inside : ∀ id ∈ [(⟨n⟩ : DeclId)], id.index < n + 2 := by simp
  have along : (moveChain n [⟨0⟩, ⟨n + 1⟩, ⟨n⟩]).project = .chain n := rfl
  obtain ⟨seen, walks, fromFirst, fromLast⟩ := walks_upwards along rfl full inside
  have second : ⟨1⟩ ∈ (moveChain n [⟨0⟩, ⟨n + 1⟩, ⟨n⟩]).othersFrom [] ⟨0⟩ :=
    (fromFirst ⟨1⟩).mpr (by simp only; omega)
  rw [hierarchyFindings_of_starts rfl walks (by simp [List.ne_nil_of_mem second, fromLast])]
  refine congrArg Except.ok (List.eq_nil_iff_forall_not_mem.mpr fun finding found => ?_)
  obtain ⟨start, started, found⟩ := List.mem_flatMap.mp found
  obtain ⟨-, ⟨staying, other, stays⟩, conflict⟩ := (mem_startFindings _).mp found
  rcases List.mem_pair.mp started with rfl | rfl
  · obtain ⟨target, lives, away | ⟨source, livesThere, -, left, leftOther, there, -⟩⟩ :=
      isSome_relaxedConflict?.mp (Option.isSome_iff_exists.mpr ⟨_, conflict⟩)
    · refine away ⟨1⟩ second ?_
      rw [← lives, residence?_chain rfl (by simp only; omega)]
      exact congrArg some ((Project.chainResidence_eq_second (by omega)).mpr rfl)
    · have := (fromFirst left).mp leftOther
      rw [residence?_chain rfl (by simp only; omega), Option.some.injEq] at livesThere
      rw [residence?_chain rfl (by omega), ← livesThere, Option.some.injEq,
        Project.chainResidence_eq_end.mpr (Or.inl rfl), Project.chainResidence_eq_end] at there
      omega
  · rw [fromLast, List.mem_singleton] at other
    have moves : (moveChain n [⟨0⟩, ⟨n + 1⟩, ⟨n⟩]).isMoving (.decl ⟨n⟩) = true :=
      Project.isInside_of_mem (by simp [moveChain, ofDecls])
    rw [other, moves] at stays
    cases stays

theorem onlyFirst_chain : OnlyFirst (.chain n) ⟨n + 1⟩ (moveChain n [⟨n + 1⟩, ⟨0⟩, ⟨n⟩])
    (moveChain n [⟨0⟩, ⟨n + 1⟩, ⟨n⟩]) :=
  onlyFirst_of_findings rfl rfl (findsTorn_moveChain full) (hierarchyFindings_moveChain full)

end Chain

/-- The circle is at the target itself, so nothing else is there; the disc leaves the shape behind,
and the square leaves nothing; the class of the host language is at the target, but is not counted.
In the last two projects the walk from one class does not find all of the hierarchy. -/
theorem verdict_depends_on_first :
    OnlyFirst spread ⟨0⟩ (moveSpread [⟨2⟩, ⟨3⟩]) (moveSpread [⟨3⟩, ⟨2⟩]) ∧
      OnlyFirst spread ⟨0⟩ (moveSpread [⟨1⟩, ⟨3⟩]) (moveSpread [⟨3⟩, ⟨1⟩]) ∧
      OnlyFirst spread ⟨0⟩ (moveSpread [⟨2⟩, ⟨4⟩]) (moveSpread [⟨4⟩, ⟨2⟩]) ∧
      OnlyFirst forkedAway ⟨2⟩ (moveForkedAway [⟨2⟩, ⟨1⟩]) (moveForkedAway [⟨1⟩, ⟨2⟩]) ∧
      OnlyFirst (.chain hierarchyLimit) ⟨hierarchyLimit + 1⟩
        (moveChain hierarchyLimit [⟨hierarchyLimit + 1⟩, ⟨0⟩, ⟨hierarchyLimit⟩])
        (moveChain hierarchyLimit [⟨0⟩, ⟨hierarchyLimit + 1⟩, ⟨hierarchyLimit⟩]) := by
  have runs {one other : DeclId} (oneDeclared : one ∈ spread.declIds)
      (otherDeclared : other ∈ spread.declIds)
      (torn : (∃ left ∈ spreadOthers one,
          (moveSpread [one, other]).isMoving (.decl left) = false) ∧
        ((moveSpread [one, other]).relaxedConflict? one (spreadOthers one)).isSome = true)
      (whole : ¬ ((∃ left ∈ spreadOthers other,
          (moveSpread [other, one]).isMoving (.decl left) = false) ∧
        ((moveSpread [other, one]).relaxedConflict? other (spreadOthers other)).isSome = true)) :
      OnlyFirst spread ⟨0⟩ (moveSpread [one, other]) (moveSpread [other, one]) := by
    obtain ⟨first, firstReturned, firstVerdict⟩ := verdict_spread one oneDeclared [other]
    obtain ⟨second, secondReturned, secondVerdict⟩ := verdict_spread other otherDeclared [one]
    exact ⟨first, second, firstReturned, secondReturned, firstVerdict.mpr torn,
      fun found => whole (secondVerdict.mp found)⟩
  refine ⟨runs ?_ ?_ ?_ ?_, runs ?_ ?_ ?_ ?_, runs ?_ ?_ ?_ ?_, onlyFirst_forkedAway,
    onlyFirst_chain rfl⟩ <;>
    decide +kernel

/-- The shape and the disc live in one place, so either may come first. -/
theorem verdict_in_any_order_spread :
    spread.Walkable ⟨0⟩ ∧ ∃ one other,
      (moveSpread [⟨0⟩, ⟨1⟩]).check (.ofUsages [] {}) = .ok one ∧
        (moveSpread [⟨1⟩, ⟨0⟩]).check (.ofUsages [] {}) = .ok other ∧
        ((∃ finding ∈ one.report.torn, spread.IsAbout ⟨0⟩ finding) ↔
          ∃ finding ∈ other.report.torn, spread.IsAbout ⟨0⟩ finding) := by
  obtain ⟨one, oneReturned, -⟩ := verdict_spread ⟨0⟩ (by decide +kernel) [⟨1⟩]
  obtain ⟨other, otherReturned, -⟩ := verdict_spread ⟨1⟩ (by decide +kernel) [⟨0⟩]
  refine ⟨walkable_spread ⟨0⟩, one, other, oneReturned, otherReturned,
    verdict_in_any_order (walkable_spread ⟨0⟩) rfl (List.Perm.swap ..) oneReturned otherReturned
      ?_⟩
  intro _ oneEntry otherEntry residence oneEntered otherEntered _
  have same : spread.SameHierarchy ⟨0⟩ ⟨1⟩ := sameHierarchy_spread (by decide +kernel)
  obtain rfl := (Project.enters_cons_iff (by decide +kernel) (.refl _)).mp oneEntered
  obtain rfl := (Project.enters_cons_iff (by decide +kernel) same).mp otherEntered
  exact alike_of_residence same (by decide +kernel) (by decide +kernel) (by decide +kernel)
    (by decide +kernel) residence

end Relocation.Pass
