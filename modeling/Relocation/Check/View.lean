import Relocation.Project.Place
set_option autoImplicit false

/-!
Declarations as they are, or as they will be once moved.

A view may replace the visibility of a declaration and its container. What follows from the
container (file, module, package, containing class) follows the replacement; the declaration
itself stays the same.
-/

namespace Relocation

structure DeclView where
  decl : DeclId
  visibility? : Option Visibility := none
  container? : Option Container := none
  deriving DecidableEq, Repr

namespace DeclView

def current (decl : DeclId) : DeclView := { decl }

def withVisibility (view : DeclView) (visibility : Option Visibility) : DeclView :=
  { view with visibility? := visibility.or view.visibility? }

/-- A protected declaration that lands in a package has no class to be protected in and becomes
public. -/
def landedVisibility (container : Container) (visibility : Visibility) : Visibility :=
  if visibility = .prot ∧ container.isPackage then .pub else visibility

/-- The declaration moved into a container, with its own visibility or a given one. Type aliases
and type parameters are not looked at apart from where they are. -/
def moved? (p : Project) (decl : DeclId) (container : Container)
    (visibility : Option Visibility) : Option DeclView :=
  let data := p.decl decl
  if data.kind.isClassLike || data.kind.isCallable then
    some {
      decl
      visibility? := some (landedVisibility container (visibility.getD data.visibility))
      container? := some container }
  else none

variable (p : Project) (view : DeclView)

def isRelocated : Bool := view.container?.isSome

def visibility : Visibility := view.visibility?.getD (p.decl view.decl).visibility

def container : Container := view.container?.getD (p.container view.decl)

def isConstructor : Bool := (p.decl view.decl).kind == .constructor

end DeclView

namespace Project

variable (p : Project)

def fileOfContainer? : Container → Option FileId
  | .decl id => p.fileOf? id
  | .package fragment => fragment.file

def moduleOfContainer? : Container → Option ModuleId
  | .decl id => p.moduleOf? id
  | .package fragment => fragment.module

def packageOfContainer? : Container → Option QualifiedName
  | .decl id => p.packageOf? id
  | .package fragment => some fragment.name

end Project

namespace DeclView

variable (p : Project) (view : DeclView)

def file? : Option FileId :=
  match view.container? with
  | some container => p.fileOfContainer? container
  | none => p.fileOf? view.decl

def module? : Option ModuleId :=
  match view.container? with
  | some container => p.moduleOfContainer? container
  | none => p.moduleOf? view.decl

def package? : Option QualifiedName :=
  match view.container? with
  | some container => p.packageOfContainer? container
  | none => p.packageOf? view.decl

def containingClass? : Option DeclId :=
  match view.container p with
  | .package _ => none
  | .decl owner =>
    if (p.decl owner).kind.isClassLike then some owner else p.containingClass? owner

end DeclView

end Relocation
