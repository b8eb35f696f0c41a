import Relocation.Project.Search
set_option autoImplicit false

/-!
Usages: references to declarations that are being moved.
-/

namespace Relocation

structure Usage where
  reference : RefId
  referenced : DeclId
  /-- The reference itself lies inside the moved code. -/
  isInternal : Bool
  deriving DecidableEq, Repr

namespace Project

variable (p : Project)

def isInside (elements : List Element) (element : Element) : Bool :=
  elements.any fun outer => p.isAncestor outer element

/-- What is nested in a declaration: its members, then what is nested in each member, last member
first. -/
def nestedWithin : Nat → DeclId → List DeclId
  | 0, _ => []
  | depth + 1, id => p.members id ++ (p.members id).reverse.flatMap (nestedWithin depth)

def nested (id : DeclId) : List DeclId := p.nestedWithin p.decls.size id

def namedBy (elements : List Element) : List DeclId :=
  elements.flatMap fun
    | .decl id => [id]
    | .file id => p.topLevel id
    | .reference _ => []

def declarationsIn (elements : List Element) : List DeclId :=
  let named := p.namedBy elements
  named ++ named.reverse.flatMap p.nested

/-- All usages of the declarations that move along with a list of elements. -/
def collectUsages (services : Services) (elements : List Element) : List Usage :=
  (p.declarationsIn elements).flatMap fun referenced =>
    (services.referencesTo referenced).map fun reference =>
      { reference, referenced, isInternal := p.isInside elements (.reference reference) }

end Project

/-- The usages that lie inside the moved code, each once, in order of first occurrence. -/
def internalUsages (usages : List Usage) : List Usage :=
  (usages.filter Usage.isInternal).eraseDups

/-- The usages that lie outside the moved code, each once, in order of first occurrence. -/
def externalUsages (usages : List Usage) : List Usage :=
  (usages.filter fun usage => !usage.isInternal).eraseDups

end Relocation
