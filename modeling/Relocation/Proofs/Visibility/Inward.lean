import Relocation.Proofs.Project.Containers
import Relocation.Proofs.Visibility.InPlace
set_option autoImplicit false

/-!
Visibility on the way inwards. What is visible from a container is visible from all that lies in it:
the code inside has the same file, module and package, and no fewer declarations around it. The step
is from a declaration to its container, and holds for each of the visibilities on its own.
-/

namespace Relocation

namespace Project

variable {p : Project} {count : Nat} (nested : p.NestedBelow (count + 1))
  (short : count + 1 < chainLimit)
include nested short

theorem declChain_container_subset (id : DeclId) :
    p.declChain (p.container id) ⊆ p.declChain (.decl id) := by
  rw [declChain, owners_eq nested short]
  exact List.subset_cons_self ..

end Project

namespace DeclView

variable {p : Project} {count : Nat} (nested : p.NestedBelow (count + 1))
  (short : count + 1 < chainLimit) (view : DeclView) {id : DeclId}
include nested short

theorem isPrivateVisible_inward (seen : view.isPrivateVisible p (p.container id) = true) :
    view.isPrivateVisible p (.decl id) = true := by
  unfold isPrivateVisible at seen ⊢
  cases home : view.container p with
  | decl owner =>
    simp only [home, List.contains_iff_mem] at seen ⊢
    exact Project.declChain_container_subset nested short id seen
  | package fragment =>
    rw [home] at seen
    rwa [Project.fileOfContainer?_inside nested short Relation.ReflTransGen.refl]

theorem isInternalVisible_inward :
    view.isInternalVisible p (.decl id) = view.isInternalVisible p (p.container id) := by
  rw [isInternalVisible, isInternalVisible,
    Project.moduleOfContainer?_inside nested short Relation.ReflTransGen.refl]

theorem isProtectedVisible_inward (seen : view.isProtectedVisible p (p.container id) = true) :
    view.isProtectedVisible p (.decl id) = true := by
  unfold isProtectedVisible at seen ⊢
  cases owned : view.containingClass? p with
  | none => simp [owned] at seen
  | some owner =>
    simp only [owned, List.any_eq_true] at seen ⊢
    obtain ⟨inheritor, around, inherits⟩ := seen
    exact ⟨inheritor, Project.declChain_container_subset nested short id around, inherits⟩

theorem isPackageVisible_inward :
    view.isPackageVisible p (.decl id) = view.isPackageVisible p (p.container id) := by
  rw [isPackageVisible, isPackageVisible,
    Project.packageOfContainer?_inside nested short Relation.ReflTransGen.refl]

theorem isAllowed_inward (seen : view.isAllowed p (p.container id) = true) :
    view.isAllowed p (.decl id) = true := by
  unfold isAllowed at seen ⊢
  cases declared : view.visibility p with
  | pub => rfl
  | priv =>
    rw [declared] at seen
    exact view.isPrivateVisible_inward nested short seen
  | internal =>
    rw [declared] at seen
    exact (view.isInternalVisible_inward nested short).trans seen
  | prot =>
    rw [declared] at seen
    exact view.isProtectedVisible_inward nested short seen
  | pkg =>
    rw [declared] at seen
    exact (view.isPackageVisible_inward nested short).trans seen
  | protPkg =>
    simp only [declared, Bool.or_eq_true] at seen ⊢
    rw [view.isPackageVisible_inward nested short]
    exact seen.imp_right (view.isProtectedVisible_inward nested short)

/-- A constructor asks for its class as well, which is allowed as far. -/
theorem isVisible_inward (seen : view.isVisible p (p.container id) = true) :
    view.isVisible p (.decl id) = true := by
  unfold isVisible at seen ⊢
  split
  · rfl
  next looked =>
    rw [if_neg looked, Bool.and_eq_true] at seen
    obtain ⟨own, ofClass⟩ := seen
    rw [view.isAllowed_inward nested short own, Bool.true_and]
    split
    next constructs =>
      rw [if_pos constructs] at ofClass
      cases parent : (p.decl view.decl).parent with
      | file file => rfl
      | decl owner =>
        rw [parent] at ofClass
        exact (current owner).isAllowed_inward nested short ofClass
    · rfl

theorem isVisible_of_outwards {inner outer : Container} (outwards : p.Outwards inner outer)
    (seen : view.isVisible p outer = true) : view.isVisible p inner = true := by
  induction outwards using Relation.ReflTransGen.head_induction_on with
  | refl => exact seen
  | head step _ inductionHypothesis =>
    obtain ⟨owner, rfl, rfl⟩ := step
    exact view.isVisible_inward nested short inductionHypothesis

end DeclView

namespace Project

/-- Whoever sees a declaration, as it is or as it will be, with its own visibility or another, lets
all code inside see it: what is visible from a container of `id` is visible from `id`. -/
theorem visibility_inherited {p : Project} (nested : p.NestedBelow 250) (view : DeclView)
    {id : DeclId} {container : Container} (around : container ∈ p.containers id)
    (seen : view.isVisible p container = true) : view.isVisible p (.decl id) = true := by
  have outwards : p.Outwards (p.container id) container :=
    (mem_containers_iff nested (by decide)).mp around
  have within : p.Outwards (.decl id) container :=
    Relation.ReflTransGen.head ⟨id, rfl, rfl⟩ outwards
  exact view.isVisible_of_outwards nested (by decide) within seen

/-- `Safe` keeps `code` to itself and has `Lock` inside, whose `open` may use it. Another file has
`peek`. -/
def safeCalls : List BuilderCall := [
  .module "core" .jvm, .directory "a" (.module ⟨0⟩ false) ⟨"a"⟩,
  .file ⟨0⟩ "Safe.kt" none, .file ⟨0⟩ "Peek.kt" none,
  .decl { name := "Safe", kind := .plainClass, parent := .file ⟨0⟩ },
  .decl { name := "code", kind := .property, parent := .decl ⟨0⟩, visibility := .priv },
  .decl { name := "Lock", kind := .plainClass, parent := .decl ⟨0⟩ },
  .decl { name := "open", kind := .function, parent := .decl ⟨2⟩ },
  .decl { name := "peek", kind := .function, parent := .file ⟨1⟩ }]

def safe : Project := (run? {} safeCalls).getD {}

/-- As it is, `code` is seen in `Safe` only. Made protected and moved into `Lock` it is seen there,
and once it is internal in another package of the module it is seen from all of them. -/
theorem visibility_inherited_safe :
    safe.Built ∧ safe.NestedBelow 250 ∧
      ((DeclView.current ⟨1⟩).isVisible safe (.decl ⟨0⟩) = true ∧
        (DeclView.current ⟨1⟩).isVisible safe (.decl ⟨3⟩) = true ∧
        (DeclView.current ⟨1⟩).isVisible safe (.decl ⟨4⟩) = false) ∧
      (DeclView.isVisible safe ⟨⟨1⟩, some .prot, some (.decl ⟨2⟩)⟩ (.decl ⟨2⟩) = true ∧
        DeclView.isVisible safe ⟨⟨1⟩, some .prot, some (.decl ⟨2⟩)⟩ (.decl ⟨3⟩) = true ∧
        DeclView.isVisible safe ⟨⟨1⟩, some .prot, some (.decl ⟨2⟩)⟩ (.decl ⟨0⟩) = false) ∧
      DeclView.isVisible safe ⟨⟨1⟩, some .internal, some (.package ⟨some ⟨0⟩, ⟨"b"⟩, none⟩)⟩
        (.decl ⟨4⟩) = true := by
  have nested : safe.NestedBelow 250 := by decide +kernel
  have inSafe : (DeclView.current ⟨1⟩).isVisible safe (.decl ⟨0⟩) = true := by decide +kernel
  have inLock : DeclView.isVisible safe ⟨⟨1⟩, some .prot, some (.decl ⟨2⟩)⟩ (.decl ⟨2⟩) = true := by
    decide +kernel
  refine ⟨⟨safeCalls, rfl⟩, nested, ⟨inSafe, ?_, by decide +kernel⟩,
    ⟨inLock, ?_, by decide +kernel⟩, ?_⟩
  · exact visibility_inherited nested _ (by decide +kernel) inSafe
  · exact visibility_inherited nested _ (by decide +kernel) inLock
  · have inPackage : DeclView.isVisible safe
        ⟨⟨1⟩, some .internal, some (.package ⟨some ⟨0⟩, ⟨"b"⟩, none⟩)⟩
        (.package (safe.fragmentOfFile ⟨1⟩)) = true := by
      decide +kernel
    exact visibility_inherited nested _ (by decide +kernel) inPackage

end Project

end Relocation
