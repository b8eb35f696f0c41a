import Relocation.Proofs.Check.Request
import Relocation.Proofs.Check.Restated
set_option autoImplicit false

/-!
A file that moves, and the declarations of the file that move.

The two requests state what moves in different elements, the file or the declarations at its top
level, and the same declarations and references move. They are not the same to the walks outwards
after the move: these find a declaration at the target only if it is named, and leave a file where
it is. If the target is a declaration, moved code is in its classes in one case and in none in the
other, and that decides whether it sees what is protected.
-/

namespace Relocation

namespace Project

/-- A file in which everything lies in a declaration, and nothing so deep that a walk outwards does
not come to the file. -/
structure InDecls (p : Project) (file : FileId) : Prop where
  references : ∀ id ∈ p.refIds, p.Present file (.reference id)
  shallow : ∀ element, p.LiesIn element (.file file) → p.Ends element

/-- Whether a reference names a protected declaration, or a constructor of a protected class. -/
def NamesProtected (p : Project) (id : RefId) : Prop :=
  ∃ target, (p.reference id).target = some target ∧
    ((p.decl target).visibility.normalize = .prot ∨
      ∃ owner, (p.decl target).kind = .constructor ∧ (p.decl target).parent = .decl owner ∧
        (p.decl owner).visibility.normalize = .prot)

end Project

namespace Pass

variable (p : Project) (options : CheckOptions) (target : Target) (file : FileId)

def ofWhole : Pass := .ofFile p p.services options target [.file file] file

def ofTopLevel : Pass :=
  (ofWhole p options target file).withMoving ((p.topLevel file).map .decl)

theorem ofNamed_topLevel :
    ofNamed p p.services options target ((p.topLevel file).map .decl) =
      ofTopLevel p options target file := by
  rw [ofNamed, Element.filterMap_asDecl?_map]
  rfl

variable {p options target file}

theorem movesSame_topLevel (built : p.Built) (inDecls : p.InDecls file) :
    (ofWhole p options target file).MovesSame ((p.topLevel file).map .decl) where
  decls := fun id declared =>
    built.listed.isInside_topLevel built.listsChildren declared (inDecls.shallow (.decl id))
  references := fun id known =>
    built.listed.isInside_topLevel built.listsChildren (inDecls.references id known)
      (inDecls.shallow (.reference id))

variable {into : Container}

theorem containerAfter_ofWhole (id : DeclId) :
    (ofWhole p options target file).containerAfter into id = p.container id := rfl

theorem containerAfter_ofTopLevel (id : DeclId) :
    (ofTopLevel p options target file).containerAfter into id =
      if id ∈ p.topLevel file then into else p.container id := by
  have named : ((p.topLevel file).map Element.decl).contains (.decl id) = true ↔
      id ∈ p.topLevel file := by simp
  simp only [containerAfter, ofTopLevel, withMoving, named]
  rfl

theorem container_of_mem_topLevel (built : p.Built) {id : DeclId} (member : id ∈ p.topLevel file) :
    p.container id = .package (p.fragmentOfFile file) := by
  rw [Project.container, (built.listsChildren.topLevel file id member).2]

/-- The way outwards from the target comes to the package of the file, where nothing is searched, or
back to the target, where everything was seen. -/
theorem clashesFrom_ofTopLevel (built : p.Built) {id : DeclId} (moved : id ∈ p.topLevel file)
    (steps : Nat) (seen : List DeclId) (container : Container)
    (way : container = into ∨ ∃ owner ∈ seen, into = .decl owner) :
    (ofTopLevel p options target file).clashesFrom into id steps seen container =
      (ofWhole p options target file).clashesFrom into id steps seen container := by
  induction steps generalizing seen container with
  | zero => rfl
  | succ steps inductionHypothesis =>
    cases container with
    | package fragment => rfl
    | decl owner =>
      unfold clashesFrom
      by_cases known : owner ∈ seen
      · simp only [known, if_true]
      · have around : ∃ start ∈ owner :: seen, into = .decl start := by
          rcases way with rfl | ⟨start, member, rfl⟩
          · exact ⟨owner, List.mem_cons_self .., rfl⟩
          · exact ⟨start, List.mem_cons_of_mem _ member, rfl⟩
        have further : (ofTopLevel p options target file).clashesFrom into id steps (owner :: seen)
              ((ofTopLevel p options target file).containerAfter into owner) =
            (ofWhole p options target file).clashesFrom into id steps (owner :: seen)
              ((ofWhole p options target file).containerAfter into owner) := by
          rw [containerAfter_ofTopLevel, containerAfter_ofWhole]
          by_cases atTop : owner ∈ p.topLevel file
          · obtain ⟨start, member, rfl⟩ := around
            rw [if_pos atTop, container_of_mem_topLevel built atTop]
            cases steps with
            | zero => rfl
            | succ steps =>
              have origin : p.nameOfContainer (p.container id) = p.packageOfFile file := by
                rw [container_of_mem_topLevel built moved]
                rfl
              simp only [clashesFrom, member, if_true]
              exact (if_pos origin).symm
          · rw [if_neg atTop]
            exact inductionHypothesis _ _ (Or.inr around)
        simp only [known, if_false, further]
        rfl

theorem nameClashes_ofTopLevel (built : p.Built) :
    (ofTopLevel p options target file).nameClashes =
      (ofWhole p options target file).nameClashes := by
  have each (into : Container) (id : DeclId) (moved : id ∈ p.topLevel file) :
      (ofTopLevel p options target file).clashes into id =
        (ofWhole p options target file).clashes into id :=
    clashesFrom_ofTopLevel built moved _ _ _ (Or.inl rfl)
  unfold nameClashes
  cases targeted : (ofWhole p options target file).targetContainer? with
  | none =>
    have stated : (ofTopLevel p options target file).targetContainer? = none := targeted
    simp only [stated]
  | some into =>
    have stated : (ofTopLevel p options target file).targetContainer? = some into := targeted
    simp only [stated]
    refine List.flatMap_congr fun id walked => ?_
    rw [each into id (List.mem_filter.mp walked).1]
    rfl

section Package

/-- In a package there is no class, so none is found from declarations at its top level. -/
theorem classFrom?_ofTopLevel (built : p.Built) {fragment : PackageFragment} (steps : Nat)
    (container : Container) :
    (ofTopLevel p options target file).classFrom? (.package fragment) steps container =
      (ofWhole p options target file).classFrom? (.package fragment) steps container := by
  induction steps generalizing container with
  | zero => rfl
  | succ steps inductionHypothesis =>
    cases container with
    | package other => rfl
    | decl owner =>
      have further : (ofTopLevel p options target file).classFrom? (.package fragment) steps
            ((ofTopLevel p options target file).containerAfter (.package fragment) owner) =
          (ofWhole p options target file).classFrom? (.package fragment) steps
            ((ofWhole p options target file).containerAfter (.package fragment) owner) := by
        rw [containerAfter_ofTopLevel, containerAfter_ofWhole]
        split
        next atTop =>
          rw [container_of_mem_topLevel built atTop]
          cases steps <;> rfl
        · exact inductionHypothesis _
      simp only [classFrom?, further]
      rfl

theorem classAfter?_ofTopLevel (built : p.Built) {fragment : PackageFragment} (id : DeclId) :
    (ofTopLevel p options target file).classAfter? (.package fragment) id =
      (ofWhole p options target file).classAfter? (.package fragment) id := by
  rw [classAfter?, classAfter?, classFrom?_ofTopLevel built, containerAfter_ofTopLevel,
    containerAfter_ofWhole]
  split
  next atTop =>
    rw [container_of_mem_topLevel built atTop]
    rfl
  · rfl

theorem inheritsAfter_ofTopLevel (built : p.Built) {fragment : PackageFragment}
    (owner companionOwner : Option DeclId) (steps : Nat) (referrer : DeclId) :
    (ofTopLevel p options target file).inheritsAfter (.package fragment) owner companionOwner steps
        referrer =
      (ofWhole p options target file).inheritsAfter (.package fragment) owner companionOwner steps
        referrer := by
  induction steps generalizing owner referrer with
  | zero => rfl
  | succ steps inductionHypothesis =>
    unfold inheritsAfter
    rw [classAfter?_ofTopLevel built, containerAfter_ofTopLevel, containerAfter_ofWhole]
    simp only [inductionHypothesis]
    by_cases atTop : referrer ∈ p.topLevel file
    · rw [if_pos atTop, container_of_mem_topLevel built atTop]
      rfl
    · rw [if_neg atTop]
      rfl

theorem isProtectedAfter_ofTopLevel (built : p.Built) {fragment : PackageFragment}
    (id referrer : DeclId) :
    (ofTopLevel p options target file).isProtectedAfter (.package fragment) id referrer =
      (ofWhole p options target file).isProtectedAfter (.package fragment) id referrer := by
  have classes : (ofTopLevel p options target file).classAfter? (.package fragment) =
      (ofWhole p options target file).classAfter? (.package fragment) :=
    funext fun id => classAfter?_ofTopLevel built id
  simp only [isProtectedAfter, classes, inheritsAfter_ofTopLevel built]
  rfl

end Package

/-- Only what is protected is looked for in classes. -/
theorem staysVisible_ofTopLevel (built : p.Built) {id : DeclId} {reference : RefId}
    (free : into.isPackage = true ∨ (p.decl id).visibility.normalize ≠ .prot) :
    (ofTopLevel p options target file).staysVisible into id reference =
      (ofWhole p options target file).staysVisible into id reference := by
  rcases free with inPackage | exposed
  · cases into with
    | decl owner => cases inPackage
    | package fragment =>
      simp only [staysVisible, isProtectedAfter_ofTopLevel built]
      rfl
  · have topLevel : ((ofTopLevel p options target file).project.decl id).visibility.normalize ≠
        .prot := exposed
    have whole : ((ofWhole p options target file).project.decl id).visibility.normalize ≠
        .prot := exposed
    simp only [staysVisible, topLevel, whole, if_false]
    rfl

theorem staysAccessible_ofTopLevel (built : p.Built) {id : DeclId} {reference : RefId}
    (resolved : (p.reference reference).target = some id)
    (free : into.isPackage = true ∨ ¬ p.NamesProtected reference) :
    (ofTopLevel p options target file).staysAccessible into id reference =
      (ofWhole p options target file).staysAccessible into id reference := by
  have self : into.isPackage = true ∨ (p.decl id).visibility.normalize ≠ .prot :=
    free.imp_right fun unnamed isProt => unnamed ⟨id, resolved, Or.inl isProt⟩
  rw [Bool.eq_iff_iff, staysAccessible_iff, staysAccessible_iff, staysVisible_ofTopLevel built self]
  refine and_congr_right fun _ => forall_congr' fun owner => forall₂_congr fun kind parent => ?_
  have outer : into.isPackage = true ∨ (p.decl owner).visibility.normalize ≠ .prot :=
    free.imp_right fun unnamed isProt =>
      unnamed ⟨id, resolved, Or.inr ⟨owner, kind, parent, isProt⟩⟩
  rw [staysVisible_ofTopLevel built outer]

theorem lostReference?_ofTopLevel (built : p.Built) (inDecls : p.InDecls file) {moved : DeclId}
    {id : RefId} (free : into.isPackage = true ∨ ¬ p.NamesProtected id) :
    (ofTopLevel p options target file).lostReference? into moved id =
      (ofWhole p options target file).lostReference? into moved id := by
  refine lostReference?_withMoving (movesSame_topLevel built inDecls) built.listed ?_
  intro referenced resolved
  exact staysAccessible_ofTopLevel built resolved free

/-- The two passes say of the same references that they lose sight, unless one names what is
protected and the target is a declaration. -/
theorem lostReferences_ofTopLevel (built : p.Built) (inDecls : p.InDecls file)
    (free : ∀ into, target.container? p = some into → ∀ id ∈ p.refIds,
      p.LiesIn (.reference id) (.file file) → into.isPackage = true ∨ ¬ p.NamesProtected id) :
    (ofTopLevel p options target file).lostReferences =
      (ofWhole p options target file).lostReferences := by
  unfold lostReferences
  cases targeted : (ofWhole p options target file).targetContainer? with
  | none =>
    have stated : (ofTopLevel p options target file).targetContainer? = none := targeted
    simp only [stated]
  | some into =>
    have stated : (ofTopLevel p options target file).targetContainer? = some into := targeted
    simp only [stated]
    refine List.flatMap_congr fun moved walked => List.filterMap_congr fun id within => ?_
    obtain ⟨known, inside⟩ := List.mem_filter.mp within
    have inFile := (Project.liesIn_of_liesWithin inside).trans
      (built.listsChildren.liesIn_of_mem_topLevel (List.mem_filter.mp walked).1)
    exact lostReference?_ofTopLevel built inDecls (free into targeted id known inFile)

theorem mem_lostReferences_ofTopLevel (built : p.Built) (inDecls : p.InDecls file)
    {finding : Finding}
    (free : ∀ id, finding.1 = .reference id → finding.2.code = 1101 → ¬ p.NamesProtected id) :
    finding ∈ (ofTopLevel p options target file).lostReferences ↔
      finding ∈ (ofWhole p options target file).lostReferences := by
  have same {into : Container} {moved : DeclId} {id : RefId} {pass : Pass}
      (found : pass.lostReference? into moved id = some finding) :
      (ofTopLevel p options target file).lostReference? into moved id =
        (ofWhole p options target file).lostReference? into moved id := by
    obtain ⟨referenced, -, -, -, -, rfl⟩ := (lostReference?_eq_some_iff _).mp found
    exact lostReference?_ofTopLevel built inDecls (Or.inr (free id rfl rfl))
  rw [mem_lostReferences_iff, mem_lostReferences_iff]
  constructor
  · rintro ⟨into, targeted, moved, walked, id, within, found⟩
    exact ⟨into, targeted, moved, walked, id, within, (same found).symm.trans found⟩
  · rintro ⟨into, targeted, moved, walked, id, within, found⟩
    exact ⟨into, targeted, moved, walked, id, within, (same found).trans found⟩

end Pass

end Relocation
