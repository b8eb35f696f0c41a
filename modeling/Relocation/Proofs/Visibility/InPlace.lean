import Relocation.Proofs.Visibility.Blamed
import Relocation.Proofs.Visibility.Outgoing
set_option autoImplicit false

/-!
Moves that change nothing: a declaration on its way to where it is.

The containers after such a move are those of today, so what is left of the judgement is where it
looks from. Private and internal targets are looked for from the container and not from inside, and
that makes no difference to what lies outside. Protected targets are looked for from around the
reference; what host code keeps to its package counts as protected, and is blamed if no inheritance
shows it.
-/

namespace Relocation

namespace Project

variable {p : Project}

theorem containersFrom_succ {steps : Nat} {id : DeclId}
    (ends : (p.fileWithin steps id).isSome = true) :
    p.containersFrom (steps + 2) (.decl id) = p.containersFrom (steps + 1) (.decl id) := by
  induction steps generalizing id with
  | zero => cases ends
  | succ steps inductionHypothesis =>
    rw [containersFrom_decl, containersFrom_decl, container_eq]
    unfold fileWithin at ends
    cases parent : (p.decl id).parent with
    | file file => rfl
    | decl owner =>
      rw [parent] at ends
      rw [containerOf, inductionHypothesis ends]

section Nested

variable {count : Nat} (nested : p.NestedBelow (count + 1)) (short : count + 1 < chainLimit)
include nested short

theorem owners_eq (id : DeclId) : p.owners id = p.declChain (p.container id) := by
  rw [owners, containers, container_eq]
  cases (p.decl id).parent with
  | file file => rfl
  | decl owner =>
    have ends : (p.fileWithin (chainLimit - 1) owner).isSome = true :=
      nested.isSome_fileWithin (Nat.le_sub_one_of_lt short) owner
    exact congrArg (List.filterMap Container.asDecl?) (containersFrom_succ ends).symm

theorem containingClass?_eq (id : DeclId) :
    p.containingClass? id =
      (p.declChain (p.container id)).find? fun owner => (p.decl owner).kind.isClassLike := by
  rw [containingClass?, owners_eq nested short]

end Nested

end Project

theorem DeclView.containingClass?_current {p : Project} {count : Nat}
    (nested : p.NestedBelow (count + 1)) (short : count + 1 < chainLimit) (id : DeclId) :
    (current id).containingClass? p = p.containingClass? id := by
  rw [Project.containingClass?_eq nested short]
  have stays : (current id).container p = p.container id := rfl
  unfold containingClass?
  rw [stays]
  cases p.container id with
  | package fragment => rfl
  | decl owner =>
    cases isClass : (p.decl owner).kind.isClassLike with
    | true => simp [Project.declChain, isClass]
    | false => simp [Project.declChain, isClass, Project.containingClass?]

namespace Pass

variable {pass : Pass} {target : Container}

section Still

variable (still : ∀ id, pass.containerAfter target id = pass.project.container id)
include still

theorem classFrom?_eq (steps : Nat) (container : Container) :
    pass.classFrom? target steps container =
      ((pass.project.containersFrom steps container).filterMap Container.asDecl?).find?
        fun owner => (pass.project.decl owner).kind.isClassLike := by
  induction steps generalizing container with
  | zero => rfl
  | succ steps inductionHypothesis =>
    cases container with
    | package fragment => rfl
    | decl owner =>
      rw [classFrom?, still, inductionHypothesis, Project.containersFrom_decl]
      cases isClass : (pass.project.decl owner).kind.isClassLike <;>
        simp [Container.asDecl?, isClass]

theorem classAfter?_eq (id : DeclId) :
    pass.classAfter? target id = pass.project.containingClass? id := by
  rw [classAfter?, still, classFrom?_eq still]
  rfl

variable {count : Nat} (nested : pass.project.NestedBelow (count + 1))
  (short : count + 1 < chainLimit)
include nested short

/-- The search comes to every class around the declaration that refers. -/
theorem inheritsAfter_of_mem {owner inheritor : DeclId} {companionOwner : Option DeclId}
    {steps : Nat} {referrer : DeclId}
    (ends : (pass.project.fileWithin steps referrer).isSome = true)
    (around : inheritor ∈ pass.project.declChain (pass.project.container referrer))
    (isClass : (pass.project.decl inheritor).kind.isClassLike = true)
    (inherits : pass.project.isSubclassOf inheritor owner = true ∨
      companionOwner.any (fun outer => pass.project.isSubclassOf inheritor outer) = true) :
    pass.inheritsAfter target (some owner) companionOwner steps referrer = true := by
  induction steps generalizing referrer with
  | zero => cases ends
  | succ steps inductionHypothesis =>
    unfold Project.fileWithin at ends
    rw [inheritsAfter, classAfter?_eq still, still,
      Project.containingClass?_eq nested short referrer]
    rw [Project.container_eq] at around ⊢
    cases parent : (pass.project.decl referrer).parent with
    | file file =>
      rw [parent] at around
      cases around
    | decl outer =>
      rw [parent] at around ends
      cases first : (pass.project.declChain (.decl outer)).find? fun id =>
          (pass.project.decl id).kind.isClassLike with
      | none => exact absurd isClass (List.find?_eq_none.mp first inheritor around)
      | some referring =>
        simp only [Project.containerOf, first]
        by_cases same : referring = inheritor
        · subst same
          rcases inherits with direct | companion
          · simp [direct]
          · simp [companion]
        · have further : pass.inheritsAfter target (some owner) companionOwner steps outer =
              true := by
            apply inductionHypothesis ends
            rcases List.mem_cons.mp around with rfl | above
            · -- The innermost class would be the one that inherits.
              simp only [Project.declChain, List.find?_cons, isClass] at first
              exact absurd (Option.some.inj first).symm same
            · rwa [Project.owners_eq nested short] at above
          simp [further]

theorem isProtectedAfter_of_isProtectedVisible {id referrer : DeclId}
    (seen : (DeclView.current id).isProtectedVisible pass.project
      (pass.project.container referrer) = true) :
    pass.isProtectedAfter target id referrer = true := by
  unfold DeclView.isProtectedVisible at seen
  rw [DeclView.containingClass?_current nested short] at seen
  unfold isProtectedAfter
  rw [show pass.classAfter? target = pass.project.containingClass? from
    funext (classAfter?_eq still)]
  cases owned : pass.project.containingClass? id with
  | none => simp [owned] at seen
  | some owner =>
    simp only [owned, List.any_eq_true, Bool.and_eq_true, Bool.or_eq_true] at seen
    obtain ⟨inheritor, around, isClass, inherits⟩ := seen
    refine inheritsAfter_of_mem still nested short
      (nested.isSome_fileWithin (Nat.le_of_lt short) referrer) around isClass ?_
    refine inherits.imp_right fun companion => ?_
    cases shared : (pass.project.decl owner).flags.companion with
    | false => simp [shared] at companion
    | true => simpa [shared, Option.filter] using companion

end Still

end Pass

namespace Project

variable {p : Project}

theorem LiesIn.around_or_inside {inner one other : Element} (inOne : p.LiesIn inner one)
    (inOther : p.LiesIn inner other) : p.LiesIn one other ∨ p.LiesIn other one := by
  refine Relation.ReflTransGen.total_of_right_unique ?_ inOne inOther
  intro element first second around same
  exact Option.some.inj (around.symm.trans same)

section Nested

variable {count : Nat} (nested : p.NestedBelow (count + 1)) (short : count + 1 < chainLimit)
  {moved site : DeclId} (inside : p.LiesIn (.decl site) (.decl moved))
include nested short inside

/-- What is around the inside of a declaration, and not itself inside, is around its container. -/
theorem mem_declChain_container {owner : DeclId} (outside : p.Outside moved owner)
    (around : owner ∈ p.declChain (.decl site)) : owner ∈ p.declChain (p.container moved) := by
  rw [mem_declChain, isAncestor_iff nested short] at around
  have encloses : p.LiesIn (.decl moved) (.decl owner) :=
    (inside.around_or_inside around).resolve_right (outside_iff.mp outside)
  rcases encloses.cases_around with same | ⟨next, outwards, further⟩
  · cases same
    exact absurd rfl outside.ne
  · rw [around?_decl, Option.some.injEq] at outwards
    subst outwards
    rw [container_eq]
    cases parent : (p.decl moved).parent with
    | file file =>
      rw [parent] at further
      cases further.of_file
    | decl next =>
      rw [parent] at further
      exact mem_declChain.mpr ((isAncestor_iff nested short).mpr further)

theorem fileOf?_of_liesIn : p.fileOf? site = p.fileOf? moved := by
  obtain ⟨file, found⟩ := Option.isSome_iff_exists.mp
    (nested.isSome_fileWithin (Nat.le_of_lt short) moved)
  have home : p.fileOf? moved = some file := found
  rw [home]
  exact LiesIn.fileOf?_eq nested short (inside.trans (liesIn_of_fileWithin found))

omit inside in
theorem fileOfContainer?_container : p.fileOfContainer? (p.container moved) = p.fileOf? moved := by
  rw [container_eq]
  cases parent : (p.decl moved).parent with
  | file file => simp [containerOf, fileOfContainer?, fragmentOfFile, fileOf?_eq, parent]
  | decl owner =>
    have within : p.LiesIn (.decl moved) (.decl owner) :=
      Relation.ReflTransGen.single (by simp [around?, parent])
    exact (fileOf?_of_liesIn nested short within).symm

theorem fileOfContainer?_inside :
    p.fileOfContainer? (.decl site) = p.fileOfContainer? (p.container moved) := by
  rw [fileOfContainer?_container nested short]
  exact fileOf?_of_liesIn nested short inside

theorem moduleOfContainer?_inside :
    p.moduleOfContainer? (.decl site) = p.moduleOfContainer? (p.container moved) := by
  calc
    p.moduleOf? site = (p.fileOf? site).bind p.moduleOfFile? := p.moduleOf?_eq site
    _ = (p.fileOfContainer? (p.container moved)).bind p.moduleOfFile? := by
      rw [← fileOfContainer?_inside nested short inside]
      rfl
    _ = p.moduleOfContainer? (p.container moved) := by
      rw [container_eq, moduleOfContainer?_containerOf]

theorem packageOfContainer?_inside :
    p.packageOfContainer? (.decl site) = p.packageOfContainer? (p.container moved) := by
  calc
    p.packageOf? site = (p.fileOfContainer? (p.container moved)).map p.packageOfFile := by
      rw [← fileOfContainer?_inside nested short inside]
      rfl
    _ = p.packageOfContainer? (p.container moved) := by
      rw [container_eq, packageOfContainer?_containerOf]

end Nested

def InheritsOnlyFrom (p : Project) (id : DeclId) (inner outer : Container) : Prop :=
  (DeclView.current id).isProtectedVisible p inner = true ∧
    (DeclView.current id).isProtectedVisible p outer = false

end Project

namespace DeclView

variable {p : Project} {count : Nat} (nested : p.NestedBelow (count + 1))
  (short : count + 1 < chainLimit) {moved site : DeclId}
  (inside : p.LiesIn (.decl site) (.decl moved)) {id : DeclId} (apart : p.Outside moved id)
include nested short inside

include apart in
theorem isPrivateVisible_container
    (seen : (current id).isPrivateVisible p (.decl site) = true) :
    (current id).isPrivateVisible p (p.container moved) = true := by
  have stays : (current id).container p = p.container id := rfl
  unfold isPrivateVisible at seen ⊢
  rw [stays, Project.container_eq] at seen ⊢
  cases parent : (p.decl id).parent with
  | file file =>
    rw [parent, Project.fileOfContainer?_inside nested short inside] at seen
    exact seen
  | decl owner =>
    rw [parent] at seen
    simp only [Project.containerOf, List.contains_iff_mem] at seen ⊢
    exact Project.mem_declChain_container nested short inside
      (Project.Outside.privateScope (apart.owner parent)) seen

theorem isInternalVisible_container :
    (current id).isInternalVisible p (.decl site) =
      (current id).isInternalVisible p (p.container moved) := by
  rw [isInternalVisible, isInternalVisible,
    Project.moduleOfContainer?_inside nested short inside]

theorem isPackageVisible_container :
    (current id).isPackageVisible p (.decl site) =
      (current id).isPackageVisible p (p.container moved) := by
  rw [isPackageVisible, isPackageVisible, Project.packageOfContainer?_inside nested short inside]

include apart in
/-- From the container as much is allowed as from inside, but for what inheritance shows there. -/
theorem isAllowed_container (allowed : (current id).isAllowed p (.decl site) = true) :
    (current id).isAllowed p (p.container moved) = true ∨
      (p.decl id).visibility.normalize = .prot ∧
        p.InheritsOnlyFrom id (.decl site) (p.container moved) := by
  have declared : (current id).visibility p = (p.decl id).visibility := rfl
  rw [or_iff_not_imp_right]
  intro notOnly
  have inherited (isProtected : (p.decl id).visibility.normalize = .prot)
      (seen : (current id).isProtectedVisible p (.decl site) = true) :
      (current id).isProtectedVisible p (p.container moved) = true := by
    by_contra lost
    exact notOnly ⟨isProtected, seen, Bool.eq_false_iff.mpr lost⟩
  unfold isAllowed at allowed ⊢
  rw [declared] at allowed ⊢
  generalize (p.decl id).visibility = visibility at allowed inherited ⊢
  cases visibility with
  | pub => rfl
  | priv => exact isPrivateVisible_container nested short inside apart allowed
  | internal => exact (isInternalVisible_container nested short inside).symm.trans allowed
  | prot => exact inherited rfl allowed
  | pkg => exact (isPackageVisible_container nested short inside).symm.trans allowed
  | protPkg =>
    simp only [Bool.or_eq_true] at allowed ⊢
    rw [← isPackageVisible_container nested short inside]
    exact allowed.imp_right (inherited rfl)

omit nested short inside in
theorem package_of_isAllowed {source : Container}
    (isProtected : (p.decl id).visibility.normalize = .prot)
    (allowed : (current id).isAllowed p source = true)
    (apart : (current id).isProtectedVisible p source = false) :
    ((p.decl id).visibility = .pkg ∨ (p.decl id).visibility = .protPkg) ∧
      (current id).isPackageVisible p source = true := by
  have declared : (current id).visibility p = (p.decl id).visibility := rfl
  unfold isAllowed at allowed
  rw [declared] at allowed
  generalize (p.decl id).visibility = visibility at isProtected allowed ⊢
  cases visibility with
  | pub => cases isProtected
  | priv => cases isProtected
  | internal => cases isProtected
  | prot =>
    rw [apart] at allowed
    cases allowed
  | pkg => exact ⟨Or.inl rfl, allowed⟩
  | protPkg =>
    rw [apart, Bool.or_false] at allowed
    exact ⟨Or.inr rfl, allowed⟩

end DeclView

/-- Why something that is in sight of `referrer` may be blamed on a move of `moved` that changes
nothing. -/
inductive BlamedInPlace (p : Project) (moved referrer judged : DeclId) : Prop
  /-- Host code keeps it to its package, and no inheritance shows it. -/
  | hostPackage :
      (p.decl judged).visibility = .pkg ∨ (p.decl judged).visibility = .protPkg →
      (DeclView.current judged).isPackageVisible p (.decl referrer) = true →
      (DeclView.current judged).isProtectedVisible p (.decl referrer) = false →
      BlamedInPlace p moved referrer judged
  /-- The class that refers inherits by itself, and no class around it does. -/
  | ownInheritance :
      (p.decl judged).visibility.normalize = .prot →
      p.InheritsOnlyFrom judged (.decl referrer) (p.container referrer) →
      BlamedInPlace p moved referrer judged
  /-- A private or internal constructor of a class that only what is moved inherits from. -/
  | constructor {owner : DeclId} :
      (p.decl judged).kind = .constructor → (p.decl judged).parent = .decl owner →
      (p.decl judged).visibility = .priv ∨ (p.decl judged).visibility = .internal →
      (p.decl owner).visibility.normalize = .prot →
      p.InheritsOnlyFrom owner (.decl referrer) (p.container moved) →
      BlamedInPlace p moved referrer judged
  /-- A constructor of a type parameter. -/
  | typeParameter : (p.decl judged).hasVisibility = false → BlamedInPlace p moved referrer judged

namespace Pass

def inPlace (p : Project) (services : Services) (options : CheckOptions) (id : DeclId) : Pass :=
  .ofDecls p services options (.ofParent (p.decl id).parent) [id]

theorem liesIn_moved (pass : Pass) (lists : pass.project.ListsChildren) {moved referrer : DeclId}
    {id : RefId} (within : id ∈ pass.project.referencesWithin moved)
    (referring : pass.referrer? id = some referrer) :
    pass.project.LiesIn (.decl referrer) (.decl moved) := by
  obtain ⟨owner, owned, -⟩ := Option.map_eq_some_iff.mp referring
  obtain ⟨other, found, around⟩ := liesIn_referrer lists owned
  cases referring.symm.trans found
  rcases (Project.liesIn_of_liesWithin (List.mem_filter.mp within).2).cases_around with
    same | ⟨next, outwards, further⟩
  · cases same
  · have next_eq : next = .decl owner := by simpa [Project.around?, owned] using outwards.symm
    exact around.trans (next_eq ▸ further)

section InPlace

variable {p : Project} (services : Services) (options : CheckOptions) {moved : DeclId}

theorem targetContainer?_inPlace :
    (inPlace p services options moved).targetContainer? = some (p.container moved) := by
  rw [p.container_eq]
  exact Target.container?_ofParent p _

theorem containerAfter_inPlace (id : DeclId) :
    (inPlace p services options moved).containerAfter (p.container moved) id = p.container id := by
  have moving : (inPlace p services options moved).moving = [.decl moved] := rfl
  have project : (inPlace p services options moved).project = p := rfl
  rw [containerAfter, moving, project]
  split
  next same =>
    cases List.mem_singleton.mp (List.contains_iff_mem.mp same)
    rfl
  · rfl

variable {count : Nat} (nested : p.NestedBelow (count + 1)) (short : count + 1 < chainLimit)
include nested short

theorem blamedInPlace_of_staysVisible {judged referrer : DeclId}
    (apart : p.Outside moved judged) (inside : p.LiesIn (.decl referrer) (.decl moved)) {id : RefId}
    (referring : (inPlace p services options moved).referrer? id = some referrer)
    (lost : (inPlace p services options moved).staysVisible (p.container moved) judged id = false) :
    BlamedInPlace p moved referrer judged := by
  obtain ⟨notPublic, other, found, seen, unseen⟩ := staysVisible_eq_false_iff.mp lost
  cases referring.symm.trans found
  have project : (inPlace p services options moved).project = p := rfl
  rw [project] at notPublic seen unseen
  by_cases isProtected : (p.decl judged).visibility.normalize = .prot
  · rw [if_pos isProtected] at unseen
    have hidden :
        (DeclView.current judged).isProtectedVisible p (p.container referrer) = false := by
      by_contra shown
      have stays : (inPlace p services options moved).isProtectedAfter (p.container moved) judged
          referrer = true :=
        isProtectedAfter_of_isProtectedVisible (containerAfter_inPlace services options) nested
          short (Bool.of_not_eq_false shown)
      rw [stays] at unseen
      cases unseen
    by_cases looked : (p.decl judged).hasVisibility = true
    · have allowed := (DeclView.isVisible_current_iff.mp seen looked).1
      by_cases inherited : (DeclView.current judged).isProtectedVisible p (.decl referrer) = true
      · exact .ownInheritance isProtected ⟨inherited, hidden⟩
      · have apart := Bool.eq_false_iff.mpr inherited
        obtain ⟨host, shown⟩ := DeclView.package_of_isAllowed isProtected allowed apart
        exact .hostPackage host shown apart
    · exact .typeParameter (Bool.eq_false_iff.mpr looked)
  · rw [if_neg isProtected, ← Bool.not_eq_true, DeclView.isVisible_current_iff] at unseen
    obtain ⟨looked, gone⟩ := Classical.not_imp.mp unseen
    obtain ⟨allowed, ofClass⟩ := DeclView.isVisible_current_iff.mp seen looked
    have own := (DeclView.isAllowed_container nested short inside apart allowed).resolve_right
      fun only => isProtected only.1
    simp only [own, true_and, not_forall] at gone
    obtain ⟨owner, constructs, parent, closed⟩ := gone
    obtain ⟨ofOwner, only⟩ := (DeclView.isAllowed_container nested short inside
      (apart.owner parent) (ofClass owner constructs parent)).resolve_left closed
    refine .constructor constructs parent ?_ ofOwner only
    generalize (p.decl judged).visibility = visibility at isProtected notPublic ⊢
    cases visibility with
    | priv => exact Or.inl rfl
    | internal => exact Or.inr rfl
    | pub => exact absurd rfl notPublic
    | prot => exact absurd rfl isProtected
    | pkg => exact absurd rfl isProtected
    | protPkg => exact absurd rfl isProtected

end InPlace

/-- A move that changes nothing blames nothing that is seen by more than its host package: whatever
it reports is in sight today, and is judged by inheritance where host code lets its package see it,
or where the inheritance that shows it is not looked at. -/
theorem blamed_in_place {p : Project} (built : p.Built) (nested : p.NestedBelow 250)
    (services : Services) (options : CheckOptions) (moved : DeclId) :
    ∀ finding ∈ (inPlace p services options moved).lostReferences,
      ∃ id ∈ p.referencesWithin moved, ∃ referrer named judged, finding.1 = .reference id ∧
        (inPlace p services options moved).referrer? id = some referrer ∧
        (p.reference id).target = some named ∧ p.Judged named judged ∧
        (DeclView.current judged).isVisible p (.decl referrer) = true ∧
        BlamedInPlace p moved referrer judged := by
  intro finding found
  obtain ⟨target, targeted, other, walked, id, within, keyed, named, resolved, staying, -, judged,
    isJudged, lost⟩ := judged_of_mem_lostReferences found
  cases (targetContainer?_inPlace services options).symm.trans targeted
  cases List.mem_singleton.mp (List.mem_filter.mp walked).1
  obtain ⟨-, referrer, referring, seen, -⟩ := staysVisible_eq_false_iff.mp lost
  have inside : p.LiesIn (.decl referrer) (.decl moved) :=
    liesIn_moved (inPlace p services options moved) built.listsChildren within referring
  have apart : p.Outside moved named := by
    refine Project.outside_iff.mpr fun within => ?_
    have moves : (inPlace p services options moved).isMoving (.decl named) = true :=
      (Project.isInside_iff nested (by decide)).mpr ⟨_, List.mem_singleton.mpr rfl, within⟩
    rw [moves] at staying
    cases staying
  have judgedApart : p.Outside moved judged := by
    rcases isJudged with rfl | ⟨-, parent⟩
    · exact apart
    · exact apart.owner parent
  exact ⟨id, within, referrer, named, judged, keyed, referring, resolved, isJudged, seen,
    blamedInPlace_of_staysVisible services options nested (by decide) judgedApart inside referring
      lost⟩

/-- In one package, `use` refers to a host class that is visible to the package. -/
def helperCalls : List BuilderCall := [
  .module "core" .jvm, .directory "a" (.module ⟨0⟩ false) ⟨"a"⟩,
  .file ⟨0⟩ "Helper.java" none, .file ⟨0⟩ "Use.kt" none,
  .decl
    { name := "Helper", kind := .plainClass, parent := .file ⟨0⟩, visibility := .pkg,
      language := .host },
  .decl { name := "use", kind := .function, parent := .file ⟨1⟩ },
  .referenceFrom ⟨1⟩ ⟨0⟩ {}]

def helper : Project := (Project.run? {} helperCalls).getD {}

theorem built_helper : helper.Built := ⟨helperCalls, rfl⟩

def helperLost : Finding :=
  (.reference ⟨0⟩, ⟨1101, .error,
    "Function use() uses class Helper which will be inaccessible after move"⟩)

theorem helperLost_mem :
    helperLost ∈ (inPlace helper helper.services {} ⟨1⟩).lostReferences := by
  decide +kernel

/-- Its own file is where `use` loses sight of the class. -/
theorem package_blamed_in_place :
    helper.Built ∧ helper.NestedBelow 250 ∧
      (inPlace helper helper.services {} ⟨1⟩).lostReferences ≠ [] :=
  ⟨built_helper, by decide +kernel, List.ne_nil_of_mem helperLost_mem⟩

theorem blamed_in_place_helper :
    helper.Built ∧ helper.NestedBelow 250 ∧
    helperLost ∈ (inPlace helper helper.services {} ⟨1⟩).lostReferences ∧
    ∃ id ∈ helper.referencesWithin ⟨1⟩, ∃ referrer named judged, helperLost.1 = .reference id ∧
      (inPlace helper helper.services {} ⟨1⟩).referrer? id = some referrer ∧
      (helper.reference id).target = some named ∧ helper.Judged named judged ∧
      (DeclView.current judged).isVisible helper (.decl referrer) = true ∧
      BlamedInPlace helper ⟨1⟩ referrer judged := by
  have nested : helper.NestedBelow 250 := by decide +kernel
  exact ⟨built_helper, nested, helperLost_mem,
    blamed_in_place built_helper nested helper.services {} ⟨1⟩ helperLost helperLost_mem⟩

end Pass

end Relocation
