import Relocation.Project.Basic
import Relocation.Walk
set_option autoImplicit false

/-!
Supertypes, overridden members and member scopes. Supertype and override links may form cycles.
-/

namespace Relocation

namespace Project

variable (p : Project)

def declDepth : Nat := p.decls.size + 1

def supertypeDecls (id : DeclId) : List DeclId :=
  (p.decl id).supertypes.filterMap fun type => (p.types.get type).class?

def superclass? (id : DeclId) : Option DeclId :=
  (p.supertypeDecls id).find? fun parent => (p.decl parent).kind == .plainClass

def superInterfaces (id : DeclId) : List DeclId :=
  (p.supertypeDecls id).filter fun parent => (p.decl parent).kind == .interface

def superHierarchy (id : DeclId) : List DeclId :=
  Walk.reachable p.supertypeDecls p.declDepth [id]

/-- Whether `sup` is `sub` itself or is reached from it through supertypes. -/
def isSubclassOf (sub sup : DeclId) : Bool := (p.superHierarchy sub).contains sup

def constructors (id : DeclId) : List DeclId :=
  (p.members id).filter fun member => (p.decl member).kind == .constructor

def primaryConstructor? (id : DeclId) : Option DeclId :=
  (p.constructors id).find? fun constructor => (p.decl constructor).flags.primaryConstructor

/-- The members at the top of the override chains above `id`; none when it overrides nothing. -/
def deepestOverridden (id : DeclId) : List DeclId :=
  let overridden := fun decl => (p.decl decl).overrides.reverse
  (Walk.reachable overridden p.declDepth (overridden id)).filter fun decl =>
    (p.decl decl).overrides.isEmpty

/-- The members of a class other than constructors, then those that it inherits. Private members
are not inherited. -/
def memberScope (id : DeclId) : List DeclId :=
  (p.superHierarchy id).flatMap fun owner =>
    (p.members owner).filter fun member =>
      let decl := p.decl member
      decl.kind != .constructor && (owner == id || decl.visibility != .priv)

end Project

end Relocation
