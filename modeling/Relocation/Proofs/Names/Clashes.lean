import Relocation.Check.NameClash
import Relocation.Proofs.Project.Containers
import Relocation.Proofs.Project.Scopes
set_option autoImplicit false

/-!
The search for clashes of names, against the scopes that it is to search: those of the classes from
the target outwards and that of the package at the end, but for the scope that the declaration comes
from.

The search runs along the containers as they will be after the move and remembers which declarations
it has passed. If none of the declarations around the target moves, these are the containers of today.
There is no way back then, so each container is searched, and searched once.
-/

namespace Relocation

namespace Project

/-- The scope `scope` is one of those from `target` outwards, is not the one that `id` comes from, and
declares or inherits `other`. -/
inductive FindsInScope (p : Project) (target : Container) (id other : DeclId) : Container → Prop
  | ofClass {owner : DeclId} (around : p.Outwards target (.decl owner))
      (isClass : (p.decl owner).kind.isClassLike = true)
      (foreign : p.qualifiedName owner ≠ p.nameOfContainer (p.container id))
      (inScope : p.InMemberScope owner other) :
      FindsInScope p target id other (.decl owner)
  | ofPackage {fragment : PackageFragment} (around : p.Outwards target (.package fragment))
      (foreign : fragment.name ≠ p.nameOfContainer (p.container id))
      (inScope : p.InPackageScope fragment.name fragment.module other) :
      FindsInScope p target id other (.package { fragment with file := none })

end Project

/-- The scope of names that a container is part of. All files of a package share one. -/
def Container.scope : Container → Container
  | .decl owner => .decl owner
  | .package fragment => .package { fragment with file := none }

/-- What is in the scope of a container. Only classes and packages have one. -/
def Project.scopeMembers (p : Project) : Container → List DeclId
  | .decl owner => if (p.decl owner).kind.isClassLike then p.memberScope owner else []
  | .package fragment => p.packageMembers fragment.name fragment.module

namespace Pass

def clashesIn (pass : Pass) (id : DeclId) (container : Container) : List (DeclId × Container) :=
  let p := pass.project
  if p.nameOfContainer (p.container id) = p.nameOfContainer container then []
  else pass.clashesAmong id container.scope (p.scopeMembers container)

variable {pass : Pass}

theorem mem_clashesIn {id other : DeclId} {container found : Container} :
    (other, found) ∈ pass.clashesIn id container ↔
      pass.project.nameOfContainer container ≠
          pass.project.nameOfContainer (pass.project.container id) ∧
        other ∈ pass.project.scopeMembers container ∧ found = container.scope ∧ other ≠ id ∧
          pass.project.declsEquivalent id other = true := by
  simp only [clashesIn, eq_comm (a := pass.project.nameOfContainer (pass.project.container id))]
  split
  next home => simp [home]
  next foreign =>
    simp only [clashesAmong, List.mem_map, List.mem_filter, Bool.and_eq_true, bne_iff_ne,
      Prod.mk.injEq]
    constructor
    · rintro ⟨member, ⟨listed, apart, equivalent⟩, rfl, rfl⟩
      exact ⟨foreign, listed, rfl, apart, equivalent⟩
    · rintro ⟨-, listed, rfl, apart, equivalent⟩
      exact ⟨other, ⟨listed, apart, equivalent⟩, rfl, rfl⟩

theorem nodup_clashesIn (all : pass.project.ListsAll) (ordered : pass.project.Ordered)
    (id : DeclId) (container : Container) : (pass.clashesIn id container).Nodup := by
  have distinct : (pass.project.scopeMembers container).Nodup := by
    cases container with
    | package fragment => exact Project.nodup_packageMembers all ordered ..
    | decl owner =>
      rw [Project.scopeMembers]
      split
      · exact Project.nodup_memberScope all ordered owner
      · exact List.nodup_nil
  unfold clashesIn
  dsimp only
  split
  · exact List.nodup_nil
  · exact (distinct.filter _).map fun _ _ same => (Prod.mk.inj same).1

theorem exists_mem_clashesIn_iff (all : pass.project.ListsAll) (listed : pass.project.Listed)
    {target : Container} {id other : DeclId} {found : Container} :
    (∃ container, pass.project.Outwards target container ∧
        (other, found) ∈ pass.clashesIn id container) ↔
      other ≠ id ∧ pass.project.declsEquivalent id other = true ∧
        pass.project.FindsInScope target id other found := by
  simp only [mem_clashesIn]
  constructor
  · rintro ⟨container, around, foreign, inScope, rfl, apart, equivalent⟩
    refine ⟨apart, equivalent, ?_⟩
    cases container with
    | package fragment =>
      exact .ofPackage around foreign ((Project.mem_packageMembers_iff all listed).mp inScope)
    | decl owner =>
      rw [Project.scopeMembers] at inScope
      split at inScope
      next isClass =>
        exact .ofClass around isClass foreign ((Project.mem_memberScope_iff all).mp inScope)
      · cases inScope
  · rintro ⟨apart, equivalent, finds⟩
    cases finds with
    | @ofClass owner around isClass foreign inScope =>
      refine ⟨.decl owner, around, foreign, ?_, rfl, apart, equivalent⟩
      rw [Project.scopeMembers, if_pos isClass]
      exact (Project.mem_memberScope_iff all).mpr inScope
    | @ofPackage fragment around foreign inScope =>
      exact ⟨.package fragment, around, foreign,
        (Project.mem_packageMembers_iff all listed).mpr inScope, rfl, apart, equivalent⟩

/-- If nothing around moves, the search goes along the containers of today. What it has seen lies
further inside, so it never comes back to it. -/
theorem clashesFrom_eq_flatMap (ordered : pass.project.Ordered) {target : Container} (id : DeclId)
    {steps : Nat} {seen : List DeclId} {container : Container}
    (still : ∀ owner, .decl owner ∈ pass.project.containersFrom steps container →
      .decl owner ∉ pass.moving)
    (fresh : ∀ owner, .decl owner ∈ pass.project.containersFrom steps container → owner ∉ seen) :
    pass.clashesFrom target id steps seen container =
      (pass.project.containersFrom steps container).flatMap (pass.clashesIn id) := by
  induction steps generalizing seen container with
  | zero => rfl
  | succ steps inductionHypothesis =>
    cases container with
    | package fragment => exact (List.append_nil _).symm
    | decl owner =>
      rw [Project.containersFrom_decl] at still fresh ⊢
      have here := List.mem_cons_self (a := Container.decl owner)
        (l := pass.project.containersFrom steps (pass.project.container owner))
      have stays : pass.containerAfter target owner = pass.project.container owner := by
        simp [containerAfter, still owner here]
      have unseen : ∀ outer,
          .decl outer ∈ pass.project.containersFrom steps (pass.project.container owner) →
            outer ∉ owner :: seen := by
        intro outer around
        have before := ordered.index_lt_of_mem_containersFrom around
        refine List.not_mem_cons_of_ne_of_not_mem ?_ (fresh outer (List.mem_cons_of_mem _ around))
        rintro rfl
        exact Nat.lt_irrefl _ before
      have further :=
        inductionHypothesis (fun outer around => still outer (List.mem_cons_of_mem _ around)) unseen
      have one : pass.clashesIn id (.decl owner) =
          if (pass.project.decl owner).kind.isClassLike &&
              pass.project.nameOfContainer (pass.project.container id) !=
                pass.project.qualifiedName owner
          then pass.clashesAmong id (.decl owner) (pass.project.memberScope owner) else [] := by
        have named : pass.project.nameOfContainer (.decl owner) =
            pass.project.qualifiedName owner := rfl
        rw [clashesIn, Project.scopeMembers, named]
        cases (pass.project.decl owner).kind.isClassLike <;> simp [Container.scope, clashesAmong]
      rw [clashesFrom, if_neg (fresh owner here), stays, further, List.flatMap_cons, one]

/-- A container with others around it has a scope that none of them has. -/
theorem nodup_flatMap_clashesIn (all : pass.project.ListsAll) (ordered : pass.project.Ordered)
    (id : DeclId) (steps : Nat) (container : Container) :
    ((pass.project.containersFrom steps container).flatMap (pass.clashesIn id)).Nodup := by
  refine List.nodup_flatMap.mpr ⟨fun container _ => nodup_clashesIn all ordered id container, ?_⟩
  refine (ordered.pairwise_containersFrom steps container).imp ?_
  rintro inner outer ⟨owner, rfl, before⟩ ⟨other, found⟩ inInner inOuter
  have same : Container.decl owner = outer.scope :=
    (mem_clashesIn.mp inInner).2.2.1.symm.trans (mem_clashesIn.mp inOuter).2.2.1
  cases outer with
  | package fragment => cases same
  | decl around =>
    have earlier := before around rfl
    cases same
    exact Nat.lt_irrefl _ earlier

/-- The search for clashes is exact if no declaration around the target moves. -/
theorem clashes_exact (pass : Pass) (built : pass.project.Built)
    (nested : pass.project.NestedBelow 250) {target : Container}
    (still : ∀ owner, pass.project.Outwards target (.decl owner) → .decl owner ∉ pass.moving)
    (id : DeclId) :
    (pass.clashes target id).Nodup ∧
      ∀ other scope, (other, scope) ∈ pass.clashes target id ↔
        other ≠ id ∧ pass.project.declsEquivalent id other = true ∧
          pass.project.FindsInScope target id other scope := by
  have searched : pass.clashes target id =
      (pass.project.containersFrom chainLimit target).flatMap (pass.clashesIn id) :=
    clashesFrom_eq_flatMap built.ordered id
      (fun owner around => still owner (Project.outwards_of_mem_containersFrom around))
      (fun _ _ => List.not_mem_nil)
  rw [searched]
  refine ⟨nodup_flatMap_clashesIn built.listsAll built.ordered id _ _, fun other scope => ?_⟩
  simp only [List.mem_flatMap, Project.mem_containersFrom_iff nested (by decide)]
  exact exists_mem_clashesIn_iff built.listsAll built.listed

/-- `Canvas` and `Shape` extend each other. Both declare a `draw`, as does their package, and `Shape`
keeps another one to itself. A `draw` of another package moves into `Canvas`. -/
def canvasCalls : List BuilderCall := [
  .module "core" .jvm, .directory "a" (.module ⟨0⟩ false) ⟨"a"⟩,
  .directory "b" (.module ⟨0⟩ false) ⟨"b"⟩,
  .file ⟨0⟩ "Draw.kt" none, .file ⟨1⟩ "Canvas.kt" none, .file ⟨1⟩ "Shape.kt" none,
  .decl { name := "draw", kind := .function, parent := .file ⟨0⟩ },
  .decl { name := "Canvas", kind := .plainClass, parent := .file ⟨1⟩ },
  .decl { name := "draw", kind := .function, parent := .decl ⟨1⟩ },
  .decl { name := "Shape", kind := .plainClass, parent := .file ⟨2⟩ },
  .decl { name := "draw", kind := .function, parent := .decl ⟨3⟩ },
  .decl { name := "draw", kind := .function, parent := .decl ⟨3⟩, visibility := .priv },
  .decl { name := "draw", kind := .function, parent := .file ⟨2⟩ },
  .internedType (.applied ⟨1⟩ [] false), .internedType (.applied ⟨3⟩ [] false),
  .supertype ⟨1⟩ ⟨3⟩, .supertype ⟨3⟩ ⟨2⟩]

def canvas : Project := (Project.run? {} canvasCalls).getD {}

def drawIntoCanvas : Pass := .ofDecls canvas canvas.services {} (.decl ⟨1⟩) [⟨0⟩]

theorem clashes_exact_canvas :
    canvas.Built ∧ canvas.NestedBelow 250 ∧
      (∀ owner, canvas.Outwards (.decl ⟨1⟩) (.decl owner) → .decl owner ∉ drawIntoCanvas.moving) ∧
      drawIntoCanvas.clashes (.decl ⟨1⟩) ⟨0⟩ =
        [(⟨2⟩, .decl ⟨1⟩), (⟨4⟩, .decl ⟨1⟩), (⟨6⟩, .package ⟨some ⟨0⟩, ⟨"b"⟩, none⟩)] ∧
      canvas.FindsInScope (.decl ⟨1⟩) ⟨0⟩ ⟨4⟩ (.decl ⟨1⟩) ∧
      ¬ canvas.FindsInScope (.decl ⟨1⟩) ⟨0⟩ ⟨5⟩ (.decl ⟨1⟩) := by
  have built : canvas.Built := ⟨canvasCalls, rfl⟩
  have nested : canvas.NestedBelow 250 := by decide +kernel
  have still : ∀ owner, canvas.Outwards (.decl ⟨1⟩) (.decl owner) →
      .decl owner ∉ drawIntoCanvas.moving := by
    intro owner around moves
    have onChain := (Project.mem_containersFrom_iff nested (by decide)).mpr around
    obtain rfl := Element.decl.inj (List.mem_singleton.mp moves)
    revert onChain
    decide +kernel
  have found : drawIntoCanvas.clashes (.decl ⟨1⟩) ⟨0⟩ =
      [(⟨2⟩, .decl ⟨1⟩), (⟨4⟩, .decl ⟨1⟩), (⟨6⟩, .package ⟨some ⟨0⟩, ⟨"b"⟩, none⟩)] := by
    decide +kernel
  obtain ⟨-, exact⟩ := clashes_exact drawIntoCanvas built nested still ⟨0⟩
  refine ⟨built, nested, still, found, ?_, fun finds => ?_⟩
  · have inherited := (exact ⟨4⟩ (.decl ⟨1⟩)).mp (by simp [found])
    exact inherited.2.2
  · have kept := (exact ⟨5⟩ (.decl ⟨1⟩)).mpr ⟨by decide, by decide +kernel, finds⟩
    simp [found] at kept

end Pass

end Relocation
