import Relocation.Check.Visible
import Relocation.Proofs.Project.Relocate
set_option autoImplicit false

/-!
A declaration viewed as moved is seen from where it would be seen if it had really been moved.

The two sides read different things. The view keeps the project and overrides the container; the
moved declaration has no overrides, but another parent in another project. Each getter of the view
is shown to give the same on both sides, and then so does each rule, since nothing that a rule asks
about the place it looks from is inside the moved declaration.
-/

namespace Relocation

namespace Project

variable (p : Project)

theorem moduleOfContainer?_containerOf (parent : Parent) :
    p.moduleOfContainer? (p.containerOf parent) =
      (p.fileOfContainer? (p.containerOf parent)).bind p.moduleOfFile? := by
  cases parent with
  | file file => rfl
  | decl owner => exact p.moduleOf?_eq owner

theorem packageOfContainer?_containerOf (parent : Parent) :
    p.packageOfContainer? (p.containerOf parent) =
      (p.fileOfContainer? (p.containerOf parent)).map p.packageOfFile := by
  cases parent <;> rfl

variable {p} {moved id : DeclId} (target : Parent) (outside : p.Outside moved id)
include outside

theorem declChain_relocate :
    (p.relocate moved target).declChain (.decl id) = p.declChain (.decl id) := by
  simp only [declChain, owners_relocate target outside]

theorem privateScope_relocate :
    (p.relocate moved target).privateScope id = p.privateScope id := by
  simp [privateScope, declChain_relocate target outside]

end Project

namespace DeclView

variable (p : Project) (moved : DeclId) (target : Parent)

/-- The view of a declaration that is moved below another parent. -/
def placed : DeclView where
  decl := moved
  visibility? := some (landedVisibility (p.containerOf target) (p.decl moved).visibility)
  container? := some (p.containerOf target)

theorem moved?_eq_placed
    (movable : (p.decl moved).kind.isClassLike = true ∨ (p.decl moved).kind.isCallable = true) :
    moved? p moved (p.containerOf target) none = some (placed p moved target) := by
  simp only [moved?, Bool.or_eq_true, movable, if_true]
  rfl

theorem landedVisibility_containerOf (visibility : Visibility) :
    landedVisibility (p.containerOf target) visibility = target.landed visibility := by
  cases target <;> cases visibility <;> rfl

/-- A declaration can be moved below a parent that does not lie in it, and whose own chain leaves
room for one more declaration. -/
structure Landing : Prop where
  declared : moved ∈ p.declIds
  outside : ∀ owner, target = .decl owner → p.Outside moved owner
  room : ∀ owner, target = .decl owner → (p.fileWithin (chainLimit - 1) owner).isSome = true

theorem landing_of_nestedBelow {count : Nat} (nested : p.NestedBelow (count + 1))
    (short : count + 1 < chainLimit) (declared : moved ∈ p.declIds)
    (away : ∀ owner, target = .decl owner → p.isAncestor (.decl moved) (.decl owner) = false) :
    Landing p moved target where
  declared := declared
  outside := by
    intro owner into
    exact Project.outside_of_isAncestor nested (Nat.lt_of_succ_lt short) (away owner into)
  room := by
    intro owner _
    rw [Project.fileWithin_eq (Nat.le_sub_one_of_lt short) (nested.isSome owner)]
    exact nested.isSome owner

section Landed

variable {p moved target} (landing : Landing p moved target)
include landing

theorem visibility_placed :
    (placed p moved target).visibility p =
      (current moved).visibility (p.relocate moved target) := by
  simp only [visibility, placed, current, Option.getD_some, Option.getD_none,
    landedVisibility_containerOf, Project.visibility_relocate_self target landing.declared]

theorem container_placed :
    (placed p moved target).container p = (current moved).container (p.relocate moved target) := by
  simp only [container, placed, current, Option.getD_some, Option.getD_none, Project.container_eq,
    Project.parent_relocate_self target landing.declared, Project.containerOf_relocate]

/-- The chain of the moved declaration is one longer than that of its owner, and still complete. -/
theorem file?_placed :
    (placed p moved target).file? p = (current moved).file? (p.relocate moved target) := by
  simp only [file?, placed, current, Project.fileOf?_eq,
    Project.parent_relocate_self target landing.declared]
  cases target with
  | file file => rfl
  | decl owner =>
    calc
      p.fileOf? owner = p.fileWithin (chainLimit - 1) owner :=
        Project.fileWithin_eq (Nat.sub_le ..) (landing.room owner rfl)
      _ = (p.relocate moved (.decl owner)).fileWithin (chainLimit - 1) owner :=
        (Project.fileWithin_relocate _ (landing.outside owner rfl) _).symm

theorem module?_placed :
    (placed p moved target).module? p = (current moved).module? (p.relocate moved target) := by
  calc
    (placed p moved target).module? p = ((placed p moved target).file? p).bind p.moduleOfFile? :=
      Project.moduleOfContainer?_containerOf p target
    _ = ((current moved).file? (p.relocate moved target)).bind p.moduleOfFile? := by
      rw [file?_placed landing]
    _ = (current moved).module? (p.relocate moved target) := by
      simp [module?, file?, current, Project.moduleOf?_eq]

theorem package?_placed :
    (placed p moved target).package? p = (current moved).package? (p.relocate moved target) := by
  calc
    (placed p moved target).package? p = ((placed p moved target).file? p).map p.packageOfFile :=
      Project.packageOfContainer?_containerOf p target
    _ = ((current moved).file? (p.relocate moved target)).map p.packageOfFile := by
      rw [file?_placed landing]
    _ = (current moved).package? (p.relocate moved target) := by
      simp [package?, file?, current, Project.packageOf?]

theorem containingClass?_placed :
    (placed p moved target).containingClass? p =
      (current moved).containingClass? (p.relocate moved target) := by
  unfold containingClass?
  rw [← container_placed landing]
  cases target with
  | file file => rfl
  | decl owner =>
    simp [container, placed, Project.containerOf,
      Project.containingClass?_relocate _ (landing.outside owner rfl)]

theorem outside_of_containingClass? {given : DeclId}
    (found : (placed p moved target).containingClass? p = some given) : p.Outside moved given := by
  cases target with
  | file file => cases found
  | decl owner =>
    simp only [containingClass?, container, placed, Project.containerOf, Option.getD_some] at found
    split at found
    · cases found
      exact landing.outside _ rfl
    · exact (landing.outside owner rfl).of_mem_owners (List.mem_of_find?_eq_some found)

variable {site : DeclId} (apart : p.Outside moved site)
include apart

theorem isPrivateVisible_placed :
    (placed p moved target).isPrivateVisible p (.decl site) =
      (current moved).isPrivateVisible (p.relocate moved target) (.decl site) := by
  unfold isPrivateVisible
  rw [← container_placed landing, file?_placed landing]
  cases target with
  | file file =>
    simp [container, placed, Project.containerOf, Project.fileOfContainer?,
      Project.fileOf?_relocate _ apart]
  | decl owner =>
    simp [container, placed, Project.containerOf, Project.declChain_relocate _ apart,
      Project.privateScope_relocate _ (landing.outside owner rfl)]

theorem isInternalVisible_placed :
    (placed p moved target).isInternalVisible p (.decl site) =
      (current moved).isInternalVisible (p.relocate moved target) (.decl site) := by
  unfold isInternalVisible
  rw [module?_placed landing]
  simp [Project.moduleOfContainer?, Project.moduleOf?_relocate _ apart]

theorem isProtectedVisible_placed :
    (placed p moved target).isProtectedVisible p (.decl site) =
      (current moved).isProtectedVisible (p.relocate moved target) (.decl site) := by
  unfold isProtectedVisible
  rw [← containingClass?_placed landing]
  cases found : (placed p moved target).containingClass? p with
  | none => rfl
  | some given =>
    have outside := outside_of_containingClass? landing found
    simp [Project.declChain_relocate _ apart, Project.containingClass?_relocate _ outside]

theorem isPackageVisible_placed :
    (placed p moved target).isPackageVisible p (.decl site) =
      (current moved).isPackageVisible (p.relocate moved target) (.decl site) := by
  unfold isPackageVisible
  rw [package?_placed landing]
  simp [Project.packageOfContainer?, Project.packageOf?_relocate _ apart]

theorem isAllowed_placed :
    (placed p moved target).isAllowed p (.decl site) =
      (current moved).isAllowed (p.relocate moved target) (.decl site) := by
  unfold isAllowed
  rw [visibility_placed landing]
  cases (current moved).visibility (p.relocate moved target) with
  | pub => rfl
  | internal => exact isInternalVisible_placed landing apart
  | prot => exact isProtectedVisible_placed landing apart
  | priv => exact isPrivateVisible_placed landing apart
  | pkg => exact isPackageVisible_placed landing apart
  | protPkg =>
    simp only [isPackageVisible_placed landing apart,
      isProtectedVisible_placed landing apart]

/-- Constructors are left out, whose classes are asked for where they are but not where they will
be. -/
theorem isVisible_placed (notConstructor : (p.decl moved).kind ≠ .constructor) :
    (placed p moved target).isVisible p (.decl site) =
      (current moved).isVisible (p.relocate moved target) (.decl site) := by
  have viewed : (placed p moved target).isConstructor p = false := by
    simp [isConstructor, placed, notConstructor]
  have relocated : (current moved).isConstructor (p.relocate moved target) = false := by
    simp [isConstructor, current, notConstructor]
  have looked : ((p.relocate moved target).decl moved).hasVisibility =
      (p.decl moved).hasVisibility := by
    simp [Declaration.hasVisibility]
  have allowed := isAllowed_placed landing apart
  simp only [isVisible, placed, current, looked] at viewed relocated allowed ⊢
  simp only [viewed, relocated, allowed, Bool.false_and, Bool.false_eq_true, if_false]

end Landed

/-- What a view predicts is what the visibility rules say once the declaration has been moved. The
site must not move along: code inside the moved declaration gets other surroundings itself. -/
theorem isVisible_moved_eq_isVisible_relocate {p : Project} (nested : p.NestedBelow 250)
    {moved : DeclId} (declared : moved ∈ p.declIds)
    (movable : (p.decl moved).kind.isClassLike = true ∨ (p.decl moved).kind = .function ∨
      (p.decl moved).kind = .property)
    (target : Parent)
    (away : ∀ owner, target = .decl owner → p.isAncestor (.decl moved) (.decl owner) = false)
    {site : DeclId} (apart : p.isAncestor (.decl moved) (.decl site) = false) :
    ∃ view, moved? p moved (p.containerOf target) none = some view ∧
      view.isVisible p (.decl site) =
        (current moved).isVisible (p.relocate moved target) (.decl site) := by
  have landing := landing_of_nestedBelow _ _ _ nested (by decide) declared away
  have outside := Project.outside_of_isAncestor nested (by decide) apart
  refine ⟨placed p moved target, moved?_eq_placed _ _ _ ?_, ?_⟩
  · rcases movable with classLike | function | property
    · exact Or.inl classLike
    · exact Or.inr (by simp [function, DeclKind.isCallable])
    · exact Or.inr (by simp [property, DeclKind.isCallable])
  · have notConstructor : (p.decl moved).kind ≠ .constructor := by
      intro constructor
      simp [constructor, DeclKind.isClassLike] at movable
    exact isVisible_placed landing outside notConstructor

/-- In package `a`, class `Base` protects `hook`; in package `b`, `Widget` is another class and
`Button` inherits from it. -/
def widgets : Project :=
  let p := ({} : Project).addModule "core" .jvm
  let p := p.addDirectory "core/a" (.module ⟨0⟩ false) ⟨"a"⟩
  let p := p.addDirectory "core/b" (.module ⟨0⟩ false) ⟨"b"⟩
  let p := (p.addFile ⟨0⟩ "Base.kt" none).addFile ⟨1⟩ "Widget.kt" none
  let (widget, p) := p.classType ⟨2⟩
  let p := p.addDecl { name := "Base", kind := .plainClass, parent := .file ⟨0⟩ }
  let p := p.addDecl
    { name := "hook", kind := .function, parent := .decl ⟨0⟩, visibility := .prot }
  let p := p.addDecl { name := "Widget", kind := .plainClass, parent := .file ⟨1⟩ }
  p.addDecl { name := "Button", kind := .plainClass, parent := .file ⟨1⟩, supertypes := [widget] }

/-- Moved from `Base` to `Widget`, `hook` comes into the sight of `Button`. -/
theorem isVisible_hook :
    (widgets.NestedBelow 250 ∧ ⟨1⟩ ∈ widgets.declIds ∧ (widgets.decl ⟨1⟩).kind = .function ∧
      widgets.isAncestor (.decl ⟨1⟩) (.decl ⟨2⟩) = false ∧
      widgets.isAncestor (.decl ⟨1⟩) (.decl ⟨3⟩) = false) ∧
    (current ⟨1⟩).isVisible widgets (.decl ⟨3⟩) = false ∧
    (current ⟨1⟩).isVisible (widgets.relocate ⟨1⟩ (.decl ⟨2⟩)) (.decl ⟨3⟩) = true ∧
    ∃ view, moved? widgets ⟨1⟩ (widgets.containerOf (.decl ⟨2⟩)) none = some view ∧
      view.isVisible widgets (.decl ⟨3⟩) =
        (current ⟨1⟩).isVisible (widgets.relocate ⟨1⟩ (.decl ⟨2⟩)) (.decl ⟨3⟩) := by
  have nested : widgets.NestedBelow 250 := by decide +kernel
  have declared : ⟨1⟩ ∈ widgets.declIds := by decide +kernel
  have function : (widgets.decl ⟨1⟩).kind = .function := by decide +kernel
  have away : widgets.isAncestor (.decl ⟨1⟩) (.decl ⟨2⟩) = false := by decide +kernel
  have apart : widgets.isAncestor (.decl ⟨1⟩) (.decl ⟨3⟩) = false := by decide +kernel
  refine ⟨⟨nested, declared, function, away, apart⟩, by decide +kernel, by decide +kernel, ?_⟩
  apply isVisible_moved_eq_isVisible_relocate nested declared (Or.inr (Or.inl function))
  · intro owner into
    cases into
    exact away
  · exact apart

end DeclView

end Relocation
