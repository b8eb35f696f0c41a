import Relocation.Check.View
import Relocation.Project.Hierarchy
import Relocation.Project.Scope
set_option autoImplicit false

/-!
The visibility rules: whether code in a container may refer to a declaration, as it is or as it
will be once moved.

Private code is seen within its class, or within its file at the top level. Internal code is seen
in its module and in modules that implement it. Protected code is seen in subclasses, package code
in its package.
-/

namespace Relocation

namespace Project

variable (p : Project)

def declChain : Container → List DeclId
  | .decl id => id :: p.owners id
  | .package _ => []

/-- The scope of private members of `owner`: the innermost class around them that is no companion,
since members of a companion are shared with the class it belongs to. -/
def privateScope (owner : DeclId) : DeclId :=
  let scope? := (p.declChain (.decl owner)).find? fun id =>
    (p.decl id).kind.isClassLike && !(p.decl id).flags.companion
  scope?.getD owner

end Project

namespace DeclView

variable (p : Project) (view : DeclView) (source : Container)

def isPrivateVisible : Bool :=
  match view.container p with
  | .decl owner => (p.declChain source).contains (p.privateScope owner)
  | .package _ =>
    match view.file? p, p.fileOfContainer? source with
    | some file, some other => file == other
    | _, _ => false

def isInternalVisible : Bool :=
  match p.moduleOfContainer? source, view.module? p with
  | some module, some declaring => module == declaring || p.implementsModule module declaring
  | _, _ => false

/-- Some class around `source` inherits from `owner`, or from the class that the companion `owner`
belongs to. -/
def isProtectedVisible : Bool :=
  match view.containingClass? p with
  | none => false
  | some owner =>
    let outer := if (p.decl owner).flags.companion then p.containingClass? owner else none
    (p.declChain source).any fun id =>
      (p.decl id).kind.isClassLike &&
        (p.isSubclassOf id owner || outer.any fun outer => p.isSubclassOf id outer)

def isPackageVisible : Bool :=
  match view.package? p, p.packageOfContainer? source with
  | some package, some other => package == other
  | _, _ => false

def isAllowed : Bool :=
  match view.visibility p with
  | .pub => true
  | .priv => view.isPrivateVisible p source
  | .internal => view.isInternalVisible p source
  | .prot => view.isProtectedVisible p source
  | .pkg => view.isPackageVisible p source
  | .protPkg => view.isPackageVisible p source || view.isProtectedVisible p source

/-- Whether code in `source` may refer to the declaration. To refer to a constructor where it is,
its class has to be visible as well. -/
def isVisible : Bool :=
  if !(p.decl view.decl).hasVisibility then true
  else
    view.isAllowed p source &&
      if view.isConstructor p && !view.isRelocated then
        match (p.decl view.decl).parent with
        | .decl owner => (current owner).isAllowed p source
        | .file _ => true
      else true

end DeclView

end Relocation
