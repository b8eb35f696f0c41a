import Mathlib.Data.List.Permutation
import Relocation.Project.Build
import Relocation.Proofs.Check.Finding
import Relocation.Proofs.Project.Inside
import Relocation.Proofs.Sealed.Descent
import Relocation.Proofs.Sealed.Hierarchy
import Relocation.Proofs.Sealed.Start
import Relocation.Proofs.Walk
set_option autoImplicit false

/-!
A sealed hierarchy that moves as a whole is never torn.

Both rules walk along sealed links only: the strict one down from a root, the relaxed one up and
down from any member. What moves is taken to be closed under these links, so neither walk leaves
it, wherever it starts and whatever earlier walks have taken. Nothing is asked of the links: they
may form cycles, and the inheritors may be those of any search.
-/

namespace Relocation

/-- What moves takes its sealed hierarchies along: a sealed superclass, sealed interfaces, and the
direct inheritors of everything sealed. -/
structure Project.CarriesHierarchies (p : Project) (services : Services) (moving : List Element) :
    Prop where
  superclass : ∀ id ∈ p.declIds, p.isInside moving (.decl id) = true →
    ∀ parent ∈ p.superclass? id, (p.decl parent).isSealed = true →
      p.isInside moving (.decl parent) = true
  superInterfaces : ∀ id ∈ p.declIds, p.isInside moving (.decl id) = true →
    ∀ parent ∈ p.superInterfaces id, (p.decl parent).isSealed = true →
      p.isInside moving (.decl parent) = true
  inheritors : ∀ id ∈ p.declIds, p.isInside moving (.decl id) = true →
    (p.decl id).isSealed = true →
      ∀ child ∈ services.directInheritors id, p.isInside moving (.decl child) = true

namespace Pass

variable {pass : Pass}

section Carried

variable (carried : pass.project.CarriesHierarchies pass.services pass.moving)
include carried

theorem isMoving_of_superclass {id parent : DeclId} (moves : pass.isMoving (.decl id) = true)
    (declared : pass.project.superclass? id = some parent)
    (isSealed : pass.isSealed parent = true) : pass.isMoving (.decl parent) = true := by
  have inside : id ∈ pass.project.declIds :=
    Project.mem_declIds_of_supertype (List.mem_of_find?_eq_some declared)
  exact carried.superclass id inside moves parent declared isSealed

theorem isMoving_of_sealedParents {id parent : DeclId} (moves : pass.isMoving (.decl id) = true)
    (declared : parent ∈ pass.sealedParents id) : pass.isMoving (.decl parent) = true := by
  obtain ⟨above, isSealed⟩ := List.mem_filter.mp declared
  rcases List.mem_append.mp above with superclass | superInterface
  · exact isMoving_of_superclass carried moves (Option.mem_toList.mp superclass) isSealed
  · have inside : id ∈ pass.project.declIds :=
      Project.mem_declIds_of_supertype (List.mem_filter.mp superInterface).1
    exact carried.superInterfaces id inside moves parent superInterface isSealed

theorem isMoving_of_directInheritors {id child : DeclId}
    (moves : pass.isMoving (.decl id) = true) (isSealed : pass.isSealed id = true)
    (inherits : child ∈ pass.services.directInheritors id) :
    pass.isMoving (.decl child) = true :=
  carried.inheritors id (Project.mem_declIds_of_isSealed isSealed) moves isSealed child inherits

theorem isMoving_of_sealedNeighbours {id other : DeclId}
    (moves : pass.isMoving (.decl id) = true) (next : other ∈ pass.sealedNeighbours id) :
    pass.isMoving (.decl other) = true := by
  rcases List.mem_append.mp next with above | below
  · exact isMoving_of_sealedParents carried moves above
  · split at below
    next isSealed =>
      have inherits : other ∈ pass.services.directInheritors id := by
        simpa [subclasses] using below
      exact isMoving_of_directInheritors carried moves isSealed inherits
    · cases below

theorem isMoving_strictRoot {element root : DeclId}
    (moves : pass.isMoving (.decl element) = true)
    (found : pass.strictRoot? element = some root) : pass.isMoving (.decl root) = true := by
  unfold strictRoot? at found
  split at found
  · cases found
  · split at found
    · cases found
      exact moves
    · obtain ⟨declared, isSealed⟩ := Option.filter_eq_some_iff.mp found
      exact isMoving_of_superclass carried moves declared isSealed

/-- The walk down from a root comes to what moves with the root only. -/
theorem isMoving_sealedSubclasses {root sub : DeclId} (moves : pass.isMoving (.decl root) = true)
    (found : sub ∈ pass.sealedSubclasses root) : pass.isMoving (.decl sub) = true := by
  have down := (mem_sealedSubclasses_iff.mp found).1
  clear found
  induction down with
  | refl => exact moves
  | tail _ inherits moving =>
    exact isMoving_of_directInheritors carried moving inherits.1 inherits.2

theorem strictFindings_eq_nil {seen elements : List DeclId}
    (listed : ∀ id ∈ elements, pass.isMoving (.decl id) = true) :
    pass.strictFindings seen elements = [] := by
  apply List.eq_nil_iff_forall_not_mem.mpr
  intro finding found
  obtain ⟨element, member, -, root, rooted, -, other, inside, staying⟩ :=
    pass.mem_strictFindings found
  have rootMoves := isMoving_strictRoot carried (listed element member) rooted
  have moves : pass.isMoving (.decl other) = true := by
    rcases List.mem_cons.mp inside with rfl | below
    · exact rootMoves
    · exact isMoving_sealedSubclasses carried rootMoves below
  rw [moves] at staying
  cases staying

end Carried

/-- A walk through hierarchies adds only members that it reaches from where it starts. -/
theorem mem_members_visitHierarchy {depth : Nat} {walk : HierarchyWalk} {id member : DeclId}
    (found : member ∈ (pass.visitHierarchy depth walk id).members) :
    member ∈ walk.members ∨ Walk.Reaches pass.sealedNeighbours id member := by
  induction depth generalizing walk id member with
  | zero => exact Or.inl found
  | succ depth inductionHypothesis =>
    unfold visitHierarchy at found
    split at found
    · exact Or.inl found
    · dsimp only at found
      revert member
      -- Every walk on the way, through all neighbours, has added only members reached from here.
      refine List.foldlRecOn (pass.sealedNeighbours id) (pass.visitHierarchy depth)
        (motive := fun walked => ∀ {member}, member ∈ walked.members →
          member ∈ walk.members ∨ Walk.Reaches pass.sealedNeighbours id member) ?_ ?_
      · intro member found
        split at found
        · rcases List.mem_cons.mp found with rfl | early
          · exact Or.inr Relation.ReflTransGen.refl
          · exact Or.inl early
        · exact Or.inl found
      · intro walked sound neighbour next member found
        rcases inductionHypothesis found with early | below
        · exact sound early
        · exact Or.inr (Relation.ReflTransGen.head next below)

theorem reaches_of_mem_hierarchyMembers {seen : List DeclId} {id member : DeclId}
    (found : member ∈ (pass.hierarchyMembers seen id).1) :
    Walk.Reaches pass.sealedNeighbours id member := by
  have collected := List.mem_reverse.mp (List.mem_filter.mp found).1
  rcases mem_members_visitHierarchy collected with early | reached
  · cases early
  · exact reached

theorem startFindings_eq_nil (carried : pass.project.CarriesHierarchies pass.services pass.moving)
    {start : List DeclId × DeclId} (moves : pass.isMoving (.decl start.2) = true) :
    pass.startFindings start = [] := by
  apply List.eq_nil_iff_forall_not_mem.mpr
  intro finding found
  obtain ⟨-, ⟨other, member, staying⟩, -⟩ := pass.mem_startFindings.mp found
  have reached := reaches_of_mem_hierarchyMembers (List.mem_filter.mp member).1
  have moving := reached.stays (fun id => pass.isMoving (.decl id) = true)
    (fun id moving next => isMoving_of_sealedNeighbours carried moving) moves
  rw [moving] at staying
  cases staying

theorem hierarchyFindings_eq_nil
    (carried : pass.project.CarriesHierarchies pass.services pass.moving)
    (moving : ∀ id ∈ pass.elements, pass.isMoving (.decl id) = true) {findings : List Finding}
    (returned : pass.hierarchyFindings = .ok findings) : findings = [] := by
  unfold hierarchyFindings at returned
  split at returned
  · obtain ⟨-, rfl⟩ := (pass.relaxedFindings_eq_ok_iff _ _ _).mp returned
    refine List.flatMap_eq_nil_iff.mpr ?_
    intro start started
    exact startFindings_eq_nil carried (moving _ (pass.mem_walkStarts started).1)
  · cases returned
    exact strictFindings_eq_nil carried moving

/-- Under either rule, a pass that carries its sealed hierarchies along finds nothing about them. -/
theorem carried_hierarchies_not_reported {pass : Pass}
    (listed : ∀ id ∈ pass.elements, .decl id ∈ pass.moving)
    (carried : pass.project.CarriesHierarchies pass.services pass.moving) {findings : List Finding}
    (returned : pass.hierarchyFindings = .ok findings) : findings = [] :=
  hierarchyFindings_eq_nil carried
    (fun id member => Project.isInside_of_mem (listed id member)) returned

/-- Hen and egg are sealed and inherit from each other, and the chick inherits from the egg. -/
def poultry : Project :=
  let p := ({} : Project).addModule "farm" .jvm
  let p := p.addDirectory "farm/a" (.module ⟨0⟩ false) ⟨"a"⟩
  let p := p.addDirectory "farm/b" (.module ⟨0⟩ false) ⟨"b"⟩
  let p := (p.addFile ⟨0⟩ "Hen.kt" none).addFile ⟨1⟩ "Other.kt" none
  let (hen, p) := p.classType ⟨0⟩
  let (egg, p) := p.classType ⟨1⟩
  let p := p.addDecl
    { name := "Hen", kind := .plainClass, parent := .file ⟨0⟩, modality := .sealed,
      supertypes := [egg] }
  let p := p.addDecl
    { name := "Egg", kind := .plainClass, parent := .file ⟨0⟩, modality := .sealed,
      supertypes := [hen] }
  p.addDecl { name := "Chick", kind := .plainClass, parent := .file ⟨0⟩, supertypes := [egg] }

/-- Names the chick and the hen, and takes the egg along. -/
def moveCircle (samePackage : Bool) : Pass where
  project := poultry
  services := poultry.services
  options := { language := { sealedInheritorsInSamePackage := samePackage } }
  target := .file ⟨1⟩
  elements := [⟨2⟩, ⟨0⟩]
  moving := [.decl ⟨2⟩, .decl ⟨0⟩, .decl ⟨1⟩]

theorem carriesHierarchies_poultry :
    poultry.CarriesHierarchies poultry.services [.decl ⟨2⟩, .decl ⟨0⟩, .decl ⟨1⟩] where
  superclass := by decide +kernel
  superInterfaces := by decide +kernel
  inheritors := by decide +kernel

theorem not_reported_moveCircle :
    poultry.CarriesHierarchies poultry.services [.decl ⟨2⟩, .decl ⟨0⟩, .decl ⟨1⟩] ∧
      (∃ findings, (moveCircle true).hierarchyFindings = .ok findings ∧ findings = []) ∧
      ∃ findings, (moveCircle false).hierarchyFindings = .ok findings ∧ findings = [] := by
  have relaxed : (moveCircle true).hierarchyFindings = .ok [] := by cbv
  have strict : (moveCircle false).hierarchyFindings = .ok [] := by cbv
  have listed (samePackage : Bool) : ∀ id ∈ (moveCircle samePackage).elements,
      .decl id ∈ (moveCircle samePackage).moving := by
    cases samePackage <;> decide
  refine ⟨carriesHierarchies_poultry, ⟨[], relaxed, ?_⟩, [], strict, ?_⟩
  · exact carried_hierarchies_not_reported (listed true) carriesHierarchies_poultry relaxed
  · exact carried_hierarchies_not_reported (listed false) carriesHierarchies_poultry strict

end Pass

end Relocation
