import Relocation.Proofs.Project.Reparent
import Relocation.Proofs.Visibility.Relocated
set_option autoImplicit false

/-!
What code inside a moved declaration sees of what stays, if that is private or internal.

It sees what the container at the target sees. The scope of a private declaration that stays is not
inside what moves, so it is around the inside exactly if it is around the container; and the inside
gets the file of the container, hence its module.
-/

namespace Relocation

namespace Project

section WithVisibility

variable (p : Project) (id : DeclId) (visibility : Visibility)

@[simp]
theorem declChain_withVisibility (container : Container) :
    (p.withVisibility id visibility).declChain container = p.declChain container := by
  cases container with
  | decl owner => simp [declChain, owners, containers]
  | package fragment => rfl

@[simp]
theorem privateScope_withVisibility (owner : DeclId) :
    (p.withVisibility id visibility).privateScope owner = p.privateScope owner := by
  simp [privateScope]

end WithVisibility

section Moved

variable {p : Project} {moved : DeclId} (place : Parent)

theorem moduleOfFile?_reparent : (p.reparent moved place).moduleOfFile? = p.moduleOfFile? :=
  p.moduleOfFile?_relocate moved place

theorem implementsModule_reparent (module common : ModuleId) :
    (p.reparent moved place).implementsModule module common = p.implementsModule module common :=
  p.implementsModule_relocate moved place module common

@[simp]
theorem kind_reparent (id : DeclId) :
    ((p.reparent moved place).decl id).kind = (p.decl id).kind := by
  simp [reparent]

theorem visibility_reparent_of_ne {id : DeclId} (other : id ≠ moved) :
    ((p.reparent moved place).decl id).visibility = (p.decl id).visibility := by
  rw [reparent, decl_withVisibility, if_neg (fun same => other same.1),
    visibility_relocate_of_ne place other]

section Outside

variable {id : DeclId} (outside : p.Outside moved id)
include outside

theorem container_reparent : (p.reparent moved place).container id = p.container id := by
  rw [reparent, container_withVisibility, container_relocate place outside]

theorem fileOf?_reparent_of_outside : (p.reparent moved place).fileOf? id = p.fileOf? id :=
  fileWithin_reparent_of_outside place outside chainLimit

theorem moduleOf?_reparent_of_outside : (p.reparent moved place).moduleOf? id = p.moduleOf? id := by
  rw [moduleOf?_eq, moduleOf?_eq, fileOf?_reparent_of_outside place outside, moduleOfFile?_reparent]

theorem privateScope_reparent :
    (p.reparent moved place).privateScope id = p.privateScope id := by
  rw [reparent, privateScope_withVisibility, privateScope_relocate place outside]

theorem Outside.privateScope : p.Outside moved (p.privateScope id) := by
  unfold Project.privateScope
  cases found : (p.declChain (.decl id)).find? fun id =>
      (p.decl id).kind.isClassLike && !(p.decl id).flags.companion with
  | none => exact outside
  | some scope =>
    rcases List.mem_cons.mp (List.mem_of_find?_eq_some found) with rfl | around
    · exact outside
    · exact outside.of_mem_owners around

end Outside

section Inside

variable {count : Nat} (nested : p.NestedBelow (count + 1))
  (short : count + 1 + (count + 1 + 1) < chainLimit) (declared : moved ∈ p.declIds)
  (away : ∀ owner, place = .decl owner → p.Outside moved owner) {site : DeclId}
  (inside : p.LiesIn (.decl site) (.decl moved))

theorem not_liesIn_element (away : ∀ owner, place = .decl owner → p.Outside moved owner) :
    ¬ p.LiesIn place.element (.decl moved) := by
  intro inside
  cases place with
  | file file => cases inside.of_file
  | decl owner => exact outside_iff.mp (away owner rfl) inside

include nested short declared away inside

theorem mem_declChain_reparent {owner : DeclId} (apart : p.Outside moved owner) :
    owner ∈ (p.reparent moved place).declChain (.decl site) ↔
      owner ∈ p.declChain (p.containerOf place) := by
  have nestedAfter := nested.reparent place declared away
  rw [mem_declChain, isAncestor_iff nestedAfter short,
    liesIn_reparent_iff place declared (not_liesIn_element place away) inside
      (outside_iff.mp apart)]
  cases place with
  | file file =>
    refine ⟨fun around => ?_, fun around => ?_⟩
    · cases around.of_file
    · cases around
  | decl next =>
    have shortBefore : count + 1 < chainLimit := by omega
    exact (mem_declChain.trans (isAncestor_iff nested shortBefore)).symm

theorem fileOf?_reparent_of_inside :
    (p.reparent moved place).fileOf? site = p.fileOfContainer? (p.containerOf place) := by
  have shortBefore : count + 1 < chainLimit := by omega
  have landed : ∃ file, p.fileOfContainer? (p.containerOf place) = some file ∧
      p.LiesIn place.element (.file file) := by
    cases place with
    | file file => exact ⟨file, rfl, Relation.ReflTransGen.refl⟩
    | decl owner =>
      have ends := nested.isSome_fileWithin (Nat.le_of_lt shortBefore) owner
      obtain ⟨file, found⟩ := Option.isSome_iff_exists.mp ends
      exact ⟨file, found, liesIn_of_fileWithin found⟩
  obtain ⟨file, found, around⟩ := landed
  have apart : ¬ p.LiesIn (.file file) (.decl moved) := by
    intro within
    cases within.of_file
  rw [found]
  apply LiesIn.fileOf?_eq (nested.reparent place declared away) short
  exact (liesIn_reparent_iff place declared (not_liesIn_element place away) inside apart).mpr around

end Inside

end Moved

end Project

namespace DeclView

variable {p : Project} {moved : DeclId} (place : Parent) {count : Nat}
  (nested : p.NestedBelow (count + 1)) (short : count + 1 + (count + 1 + 1) < chainLimit)
  (declared : moved ∈ p.declIds) (away : ∀ owner, place = .decl owner → p.Outside moved owner)
  {site : DeclId} (inside : p.LiesIn (.decl site) (.decl moved)) {named : DeclId}
  (apart : p.Outside moved named)
include nested short declared away inside apart

theorem isPrivateVisible_reparent :
    (current named).isPrivateVisible (p.reparent moved place) (.decl site) =
      (current named).isPrivateVisible p (p.containerOf place) := by
  have around : (current named).container (p.reparent moved place) = (current named).container p :=
    Project.container_reparent place apart
  have home : (current named).file? (p.reparent moved place) = (current named).file? p :=
    Project.fileOf?_reparent_of_outside place apart
  have landed : (p.reparent moved place).fileOfContainer? (.decl site) =
      p.fileOfContainer? (p.containerOf place) :=
    Project.fileOf?_reparent_of_inside place nested short declared away inside
  unfold isPrivateVisible
  rw [around, home, landed]
  cases contained : (current named).container p with
  | package fragment => rfl
  | decl owner =>
    have parent : (p.decl named).parent = .decl owner := by
      have container : p.containerOf (p.decl named).parent = .decl owner :=
        (p.container_eq named).symm.trans contained
      cases placed : (p.decl named).parent with
      | file file => simp [placed, Project.containerOf] at container
      | decl other =>
        rw [placed] at container
        cases container
        rfl
    have outside := apart.owner parent
    simp only [Project.privateScope_reparent place outside]
    rw [Bool.eq_iff_iff, List.contains_iff_mem, List.contains_iff_mem]
    exact Project.mem_declChain_reparent place nested short declared away inside
      (Project.Outside.privateScope outside)

theorem isInternalVisible_reparent :
    (current named).isInternalVisible (p.reparent moved place) (.decl site) =
      (current named).isInternalVisible p (p.containerOf place) := by
  have landed : (p.reparent moved place).moduleOfContainer? (.decl site) =
      p.moduleOfContainer? (p.containerOf place) := by
    calc
      (p.reparent moved place).moduleOf? site
          = ((p.reparent moved place).fileOf? site).bind p.moduleOfFile? := by
        rw [Project.moduleOf?_eq, Project.moduleOfFile?_reparent]
      _ = (p.fileOfContainer? (p.containerOf place)).bind p.moduleOfFile? := by
        rw [Project.fileOf?_reparent_of_inside place nested short declared away inside]
      _ = p.moduleOfContainer? (p.containerOf place) :=
        (p.moduleOfContainer?_containerOf place).symm
  have declaring : (current named).module? (p.reparent moved place) = (current named).module? p :=
    Project.moduleOf?_reparent_of_outside place apart
  unfold isInternalVisible
  rw [landed, declaring]
  simp only [Project.implementsModule_reparent]

/-- Inside a moved declaration the same private and internal declarations can be seen as from the
container that it moves to. -/
theorem isVisible_reparent (notConstructor : (p.decl named).kind ≠ .constructor)
    (restricted : (p.decl named).visibility = .priv ∨ (p.decl named).visibility = .internal) :
    (current named).isVisible (p.reparent moved place) (.decl site) =
      (current named).isVisible p (p.containerOf place) := by
  have kept : (current named).visibility (p.reparent moved place) = (current named).visibility p :=
    Project.visibility_reparent_of_ne place apart.ne
  have allowed : (current named).isAllowed (p.reparent moved place) (.decl site) =
      (current named).isAllowed p (p.containerOf place) := by
    unfold isAllowed
    rw [kept]
    rcases restricted with priv | internal
    · have visibility : (current named).visibility p = .priv := priv
      simp only [visibility]
      exact isPrivateVisible_reparent place nested short declared away inside apart
    · have visibility : (current named).visibility p = .internal := internal
      simp only [visibility]
      exact isInternalVisible_reparent place nested short declared away inside apart
  have looked : ((p.reparent moved place).decl named).hasVisibility =
      (p.decl named).hasVisibility := by
    simp [Declaration.hasVisibility]
  have plainAfter : (current named).isConstructor (p.reparent moved place) = false := by
    simp [isConstructor, current, notConstructor]
  have plain : (current named).isConstructor p = false := by
    simp [isConstructor, current, notConstructor]
  simp only [isVisible, current] at allowed looked plainAfter plain ⊢
  simp only [allowed, looked, plainAfter, plain, Bool.false_and, Bool.false_eq_true, if_false]

end DeclView

end Relocation
