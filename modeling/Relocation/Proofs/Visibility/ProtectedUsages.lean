import Relocation.Proofs.Visibility.Blamed
import Relocation.Proofs.Visibility.Exposed
import Relocation.Proofs.Visibility.Pairs
set_option autoImplicit false

/-!
Usages of protected declarations, by where the declarations are thought to arrive.

In a package a protected declaration becomes public for source code. Host code takes it for visible
to its package as well, before the move and after it, so host code of another package than that of
the target loses it. A member of a class that moves is judged as if it moved out of its class by
itself: into another class it is followed by subclasses of that class only.
-/

namespace Relocation

namespace Project

variable (p : Project)

/-- A class around `site` inherits from `given`, or from the class that `given` is the companion
of. -/
def InheritsAround (site given : DeclId) : Prop :=
  ∃ inheritor ∈ p.declChain (.decl site), (p.decl inheritor).kind.isClassLike = true ∧
    (p.isSubclassOf inheritor given = true ∨
      (p.decl given).flags.companion = true ∧
        ∃ outer ∈ p.containingClass? given, p.isSubclassOf inheritor outer = true)

instance (site given : DeclId) : Decidable (p.InheritsAround site given) := by
  unfold InheritsAround
  infer_instance

/-- The innermost class-like declaration from `id` outwards, itself included. -/
def classAt? (id : DeclId) : Option DeclId :=
  if (p.decl id).kind.isClassLike then some id else p.containingClass? id

end Project

namespace Target

variable {p : Project} {target : Target}

theorem container?_eq_some_decl_iff {into : DeclId} :
    target.container? p = some (.decl into) ↔ target = .decl into := by
  cases target <;> simp [container?]

theorem package?_eq {container : Container} (found : target.container? p = some container) :
    target.package? p = p.packageOfContainer? container := by
  cases target with
  | decl into | file file =>
    cases found
    rfl
  | directory id package | newFile id package name =>
    obtain ⟨module, -, rfl⟩ := Option.map_eq_some_iff.mp found
    rfl

end Target

namespace DeclView

variable {p : Project}

theorem isProtectedVisible_iff {view : DeclView} {site : DeclId} :
    view.isProtectedVisible p (.decl site) = true ↔
      ∃ given ∈ view.containingClass? p, p.InheritsAround site given := by
  unfold isProtectedVisible
  cases view.containingClass? p with
  | none => simp
  | some given =>
    simp only [Project.InheritsAround, List.any_eq_true, Bool.and_eq_true, Bool.or_eq_true,
      Option.mem_some_iff, exists_eq_left']
    refine exists_congr fun inheritor => and_congr_right fun _ => and_congr_right fun _ =>
      or_congr_right ?_
    cases (p.decl given).flags.companion <;> simp [Option.any_eq_true]

theorem isProtectedVisible_arrived_package {id : DeclId} {fragment : PackageFragment}
    {visibility : Option Visibility} {site : DeclId} :
    (arrived p id (.package fragment) visibility).isProtectedVisible p (.decl site) = false := rfl

theorem isPackageVisible_arrived_package {id : DeclId} {fragment : PackageFragment}
    {visibility : Option Visibility} {site : DeclId} :
    (arrived p id (.package fragment) visibility).isPackageVisible p (.decl site) = true ↔
      p.packageOf? site = some fragment.name := by
  have there : (arrived p id (.package fragment) visibility).package? p = some fragment.name := rfl
  have here : p.packageOfContainer? (.decl site) = p.packageOf? site := rfl
  unfold isPackageVisible
  rw [there, here]
  cases p.packageOf? site with
  | none => simp
  | some package =>
    simp only [beq_iff_eq, Option.some.injEq]
    exact eq_comm

theorem isProtectedVisible_arrived_decl {id into : DeclId} {visibility : Option Visibility}
    {site : DeclId} :
    (arrived p id (.decl into) visibility).isProtectedVisible p (.decl site) = true ↔
      ∃ given ∈ p.classAt? into, p.InheritsAround site given :=
  isProtectedVisible_iff

/-- A member of a class is seen from where a class around inherits from its class. -/
theorem isProtectedVisible_member {outer member site : DeclId}
    (isClass : (p.decl outer).kind.isClassLike = true)
    (parent : (p.decl member).parent = .decl outer) :
    (current member).isProtectedVisible p (.decl site) = true ↔ p.InheritsAround site outer := by
  have around : (current member).containingClass? p = some outer := by
    simp [containingClass?, container, current, Project.container, parent, isClass]
  rw [isProtectedVisible_iff, around]
  simp

end DeclView

namespace Pass

variable {pass : Pass} {id owner : DeclId}

theorem visibilityFor?_of_source (source : (pass.project.decl owner).isHost = false) :
    pass.visibilityFor? id owner = none := by
  simp [visibilityFor?, source]

theorem visibilityFor?_of_host (isProtected : (pass.project.decl id).visibility = .prot)
    (host : (pass.project.decl owner).isHost = true) :
    pass.visibilityFor? id owner = some .protPkg := by
  simp [visibilityFor?, host, hostVisibility?, isProtected]

/-- Source code sees a protected declaration in every package, and host code in its own. -/
theorem isAllowed_arrived_package (isProtected : (pass.project.decl id).visibility = .prot)
    {fragment : PackageFragment} :
    (DeclView.arrived pass.project id (.package fragment)
        (pass.visibilityFor? id owner)).isAllowed pass.project (.decl owner) = true ↔
      ((pass.project.decl owner).isHost = true →
        pass.project.packageOf? owner = some fragment.name) := by
  cases host : (pass.project.decl owner).isHost with
  | false =>
    have becomes : (DeclView.arrived pass.project id (.package fragment)
        (pass.visibilityFor? id owner)).visibility pass.project = .pub := by
      rw [visibilityFor?_of_source host]
      simp [DeclView.visibility, DeclView.arrived, DeclView.landedVisibility, isProtected,
        Container.isPackage]
    simp [DeclView.isAllowed, becomes]
  | true =>
    have stays : (DeclView.arrived pass.project id (.package fragment)
        (pass.visibilityFor? id owner)).visibility pass.project = .protPkg := by
      rw [visibilityFor?_of_host isProtected host]
      simp [DeclView.visibility, DeclView.arrived, DeclView.landedVisibility]
    simp only [DeclView.isAllowed, stays, DeclView.isProtectedVisible_arrived_package,
      Bool.or_false, DeclView.isPackageVisible_arrived_package, true_imp_iff]

/-- A protected declaration that is thought to arrive in a package is lost by no source code, and by
the host code that sees it today in another package than that of the target. -/
theorem protected_usages_into_package {pass : Pass} {id : DeclId}
    (isProtected : (pass.project.decl id).visibility = .prot)
    (toPackage : ∀ into, pass.target ≠ .decl into) (external : List Usage) (owner : DeclId) :
    pass.lostUsages external = (pass.reportedUsages external).map pass.usageFinding ∧
    (pass.ReportsPair external id owner ↔
      (∃ usage ∈ external, usage.referenced = id ∧ pass.Eligible usage owner) ∧
        ((pass.project.decl id).kind.isClassLike = true ∨
          (pass.project.decl id).kind.isCallable = true) ∧
        (pass.project.decl owner).isHost = true ∧
        ((DeclView.current id).withVisibility (some .protPkg)).isVisible pass.project
          (.decl owner) = true ∧
        pass.targetContainer?.isSome = true ∧
        pass.project.packageOf? owner ≠ pass.target.package? pass.project) := by
  refine ⟨pass.lostUsages_eq external, ?_⟩
  rw [reportsPair_iff, goesOutOfSight_iff]
  refine and_congr_right fun _ => and_congr_right fun _ => ?_
  cases targeted : pass.targetContainer? with
  | none => simp
  | some target =>
    have package := Target.package?_eq targeted
    cases target with
    | decl into => exact absurd (Target.container?_eq_some_decl_iff.mp targeted) (toPackage into)
    | package fragment =>
      have named : pass.project.packageOfContainer? (.package fragment) = some fragment.name := rfl
      simp only [Option.some.injEq, exists_eq_left', Option.isSome_some, true_and, package, named,
        ← Bool.not_eq_true, isAllowed_arrived_package isProtected, Classical.not_imp]
      constructor
      · rintro ⟨seen, host, elsewhere⟩
        rw [visibilityFor?_of_host isProtected host] at seen
        exact ⟨host, seen, elsewhere⟩
      · rintro ⟨host, seen, elsewhere⟩
        rw [visibilityFor?_of_host isProtected host]
        exact ⟨seen, host, elsewhere⟩

/-- In package `a`, class `Derived` inherits from `Base` and `Shelter`. Its function `use` calls the
protected `hook` of `Base`, and so does the host class `Caller`. -/
def hooksCalls : List BuilderCall := [
  .module "core" .jvm,
  .directory "a" (.module ⟨0⟩ false) ⟨"a"⟩, .directory "b" (.module ⟨0⟩ false) ⟨"b"⟩,
  .file ⟨0⟩ "Base.kt" none, .file ⟨0⟩ "Caller.java" none,
  .decl { name := "Base", kind := .plainClass, parent := .file ⟨0⟩ },
  .decl { name := "hook", kind := .function, parent := .decl ⟨0⟩, visibility := .prot },
  .decl { name := "Shelter", kind := .interface, parent := .file ⟨0⟩ },
  .internedType (.applied ⟨0⟩ [] false), .internedType (.applied ⟨2⟩ [] false),
  .decl
    { name := "Derived", kind := .plainClass, parent := .file ⟨0⟩, supertypes := [⟨2⟩, ⟨3⟩] },
  .decl { name := "use", kind := .function, parent := .decl ⟨3⟩ },
  .decl { name := "Home", kind := .plainClass, parent := .file ⟨0⟩ },
  .decl { name := "Caller", kind := .plainClass, parent := .file ⟨1⟩, language := .host },
  .referenceFrom ⟨4⟩ ⟨1⟩ {}, .referenceFrom ⟨6⟩ ⟨1⟩ {}]

def hooks : Project := (Project.run? {} hooksCalls).getD {}

def moveHook : Pass := .ofDecls hooks hooks.services {} (.directory ⟨1⟩ ⟨"b"⟩) [⟨1⟩]

def hookUsages : List Usage := hooks.collectUsages hooks.services [.decl ⟨1⟩]

/-- `Caller` loses `hook` to another package, and `use` does not. -/
theorem protected_into_package_moveHook :
    (hooks.decl ⟨1⟩).visibility = .prot ∧ (∀ into, moveHook.target ≠ .decl into) ∧
    moveHook.ReportsPair hookUsages ⟨1⟩ ⟨6⟩ ∧ ¬ moveHook.ReportsPair hookUsages ⟨1⟩ ⟨4⟩ := by
  have isProtected : (moveHook.project.decl ⟨1⟩).visibility = .prot := by decide +kernel
  have toPackage : ∀ into, moveHook.target ≠ .decl into := fun into => nofun
  refine ⟨isProtected, toPackage, ?_, ?_⟩
  · rw [(protected_usages_into_package isProtected toPackage hookUsages ⟨6⟩).2]
    refine ⟨⟨⟨⟨1⟩, ⟨1⟩, false⟩, by decide +kernel, rfl, ?_⟩, by decide +kernel, by decide +kernel,
      by decide +kernel, by decide +kernel, by decide +kernel⟩
    exact exposedOwner?_eq_some_iff.mp (by decide +kernel)
  · rw [(protected_usages_into_package isProtected toPackage hookUsages ⟨4⟩).2]
    rintro ⟨-, -, host, -⟩
    exact absurd host (by decide +kernel)

/-- A package that a protected declaration arrives in directly is no place where host code sees it
as public. -/
theorem host_loses_protected :
    (hooks.decl ⟨1⟩).visibility = .prot ∧ (hooks.decl ⟨1⟩).isHost = false ∧
    moveHook.elements = [⟨1⟩] ∧ moveHook.target = .directory ⟨1⟩ ⟨"b"⟩ ∧
    ⟨⟨1⟩, ⟨1⟩, false⟩ ∈ externalUsages hookUsages ∧
    moveHook.lostUsages (externalUsages hookUsages) = [(.reference ⟨1⟩, ⟨1101, .error,
      "Class Caller uses function hook() which will be inaccessible after move"⟩)] := by
  decide +kernel

theorem isAllowed_arrived_decl (isProtected : (pass.project.decl id).visibility = .prot)
    (source : (pass.project.decl owner).isHost = false) {into : DeclId} :
    (DeclView.arrived pass.project id (.decl into)
        (pass.visibilityFor? id owner)).isAllowed pass.project (.decl owner) = true ↔
      ∃ given ∈ pass.project.classAt? into, pass.project.InheritsAround owner given := by
  have stays : (DeclView.arrived pass.project id (.decl into)
      (pass.visibilityFor? id owner)).visibility pass.project = .prot := by
    rw [visibilityFor?_of_source source]
    simp [DeclView.visibility, DeclView.arrived, DeclView.landedVisibility, isProtected,
      Container.isPackage]
  simp only [DeclView.isAllowed, stays, DeclView.isProtectedVisible_arrived_decl]

theorem exists_hidden_iff (isProtected : (pass.project.decl id).visibility = .prot)
    (source : (pass.project.decl owner).isHost = false) :
    (∃ target, pass.targetContainer? = some target ∧
        (DeclView.arrived pass.project id target
          (pass.visibilityFor? id owner)).isAllowed pass.project (.decl owner) = false) ↔
      ∃ into, pass.target = .decl into ∧
        ¬ ∃ given ∈ pass.project.classAt? into, pass.project.InheritsAround owner given := by
  constructor
  · rintro ⟨target, targeted, hidden⟩
    rw [← Bool.not_eq_true] at hidden
    cases target with
    | decl into =>
      rw [isAllowed_arrived_decl isProtected source] at hidden
      exact ⟨into, Target.container?_eq_some_decl_iff.mp targeted, hidden⟩
    | package fragment =>
      rw [isAllowed_arrived_package isProtected, source] at hidden
      exact absurd nofun hidden
  · rintro ⟨into, isDecl, apart⟩
    refine ⟨.decl into, Target.container?_eq_some_decl_iff.mpr isDecl, ?_⟩
    rw [← Bool.not_eq_true, isAllowed_arrived_decl isProtected source]
    exact apart

theorem isVisible_member_iff {outer member : DeclId}
    (isClass : (pass.project.decl outer).kind.isClassLike = true)
    (parent : (pass.project.decl member).parent = .decl outer)
    (isProtected : (pass.project.decl member).visibility = .prot)
    (looked : (pass.project.decl member).hasVisibility = true) :
    (DeclView.current member).isVisible pass.project (.decl owner) = true ↔
      pass.project.InheritsAround owner outer ∧
        ((pass.project.decl member).kind = .constructor →
          (DeclView.current outer).isAllowed pass.project (.decl owner) = true) := by
  have allowed : (DeclView.current member).isAllowed pass.project (.decl owner) = true ↔
      pass.project.InheritsAround owner outer := by
    have declared : (DeclView.current member).visibility pass.project = .prot := isProtected
    rw [← DeclView.isProtectedVisible_member isClass parent, DeclView.isAllowed, declared]
  rw [DeclView.isVisible_current_iff, allowed]
  simp [looked, parent]

/-- Members of a class are judged as if they left it by themselves. Source code with a class around
that inherits from theirs loses them if the target is a declaration and none of these classes
inherits from the class there, and not otherwise. -/
theorem protected_members_judged_apart {pass : Pass} {outer member : DeclId}
    (isClass : (pass.project.decl outer).kind.isClassLike = true)
    (parent : (pass.project.decl member).parent = .decl outer)
    (isProtected : (pass.project.decl member).visibility = .prot) {owner : DeclId}
    (source : (pass.project.decl owner).isHost = false) (external : List Usage) :
    pass.lostUsages external = (pass.reportedUsages external).map pass.usageFinding ∧
    (pass.ReportsPair external member owner ↔
      (∃ usage ∈ external, usage.referenced = member ∧ pass.Eligible usage owner) ∧
        ((pass.project.decl member).kind.isClassLike = true ∨
          (pass.project.decl member).kind.isCallable = true) ∧
        (pass.project.InheritsAround owner outer ∧
          ((pass.project.decl member).kind = .constructor →
            (DeclView.current outer).isAllowed pass.project (.decl owner) = true)) ∧
        ∃ into, pass.target = .decl into ∧
          ¬ ∃ given ∈ pass.project.classAt? into, pass.project.InheritsAround owner given) := by
  refine ⟨pass.lostUsages_eq external, ?_⟩
  rw [reportsPair_iff, goesOutOfSight_iff, exists_hidden_iff isProtected source,
    visibilityFor?_of_source source]
  refine and_congr_right fun _ => and_congr_right fun movable => and_congr_left fun _ => ?_
  exact isVisible_member_iff isClass parent isProtected
    (Declaration.hasVisibility_of_movable movable)

def moveBase (into : DeclId) : Pass := .ofDecls hooks hooks.services {} (.decl into) [⟨0⟩]

def baseUsages : List Usage := hooks.collectUsages hooks.services [.decl ⟨0⟩]

/-- In `Home`, `hook` is lost to `use`, and in `Shelter` it is not. -/
theorem members_apart_moveBase :
    (hooks.decl ⟨0⟩).kind.isClassLike = true ∧ (hooks.decl ⟨1⟩).parent = .decl ⟨0⟩ ∧
    (hooks.decl ⟨1⟩).visibility = .prot ∧ (hooks.decl ⟨4⟩).isHost = false ∧
    (moveBase ⟨5⟩).ReportsPair baseUsages ⟨1⟩ ⟨4⟩ ∧
    ¬ (moveBase ⟨2⟩).ReportsPair baseUsages ⟨1⟩ ⟨4⟩ := by
  have isClass : (hooks.decl ⟨0⟩).kind.isClassLike = true := by decide +kernel
  have parent : (hooks.decl ⟨1⟩).parent = .decl ⟨0⟩ := by decide +kernel
  have isProtected : (hooks.decl ⟨1⟩).visibility = .prot := by decide +kernel
  have source : (hooks.decl ⟨4⟩).isHost = false := by decide +kernel
  refine ⟨isClass, parent, isProtected, source, ?_, ?_⟩
  · refine (@protected_members_judged_apart (moveBase ⟨5⟩) _ _ isClass parent isProtected _ source
      baseUsages).2.mpr ?_
    refine ⟨⟨⟨⟨0⟩, ⟨1⟩, false⟩, by decide +kernel, rfl, ?_⟩, by decide +kernel,
      ⟨by decide +kernel, by decide +kernel⟩, ⟨5⟩, rfl, by decide +kernel⟩
    exact exposedOwner?_eq_some_iff.mp (by decide +kernel)
  · rw [(@protected_members_judged_apart (moveBase ⟨2⟩) _ _ isClass parent isProtected _ source
      baseUsages).2]
    rintro ⟨-, -, -, into, isTarget, apart⟩
    cases isTarget
    exact apart (by decide +kernel)

/-- `use` goes on inheriting `hook` from `Base` when that moves into `Home`, and is reported to lose
it. -/
theorem subclass_loses_protected :
    ((hooks.decl ⟨0⟩).kind.isClassLike = true ∧ (hooks.decl ⟨0⟩).flags.companion = false ∧
      (hooks.decl ⟨1⟩).parent = .decl ⟨0⟩ ∧ (hooks.decl ⟨1⟩).visibility = .prot ∧
      (hooks.decl ⟨1⟩).isHost = false ∧ (hooks.decl ⟨4⟩).isHost = false ∧
      (hooks.decl ⟨4⟩).parent = .decl ⟨3⟩ ∧ hooks.isSubclassOf ⟨3⟩ ⟨0⟩ = true) ∧
    (moveBase ⟨5⟩).elements = [⟨0⟩] ∧ (moveBase ⟨5⟩).isMoving (.decl ⟨4⟩) = false ∧
    (DeclView.current ⟨1⟩).isVisible (hooks.relocate ⟨0⟩ (.decl ⟨5⟩)) (.decl ⟨4⟩) = true ∧
    ⟨⟨0⟩, ⟨1⟩, false⟩ ∈ externalUsages baseUsages ∧
    (moveBase ⟨5⟩).lostUsages (externalUsages baseUsages) = [(.reference ⟨0⟩, ⟨1101, .error,
      "Function use() uses function hook() which will be inaccessible after move"⟩)] := by
  decide +kernel

end Pass

end Relocation
