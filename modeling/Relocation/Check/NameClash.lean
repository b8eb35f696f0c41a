import Relocation.Check.Pass
import Relocation.Project.Hierarchy
set_option autoImplicit false

/-!
Conflicts of names: declarations at the target that a moved declaration is equivalent to. The
scopes of all classes around the target are searched, and the package at the end.
-/

namespace Relocation

namespace Project

variable (p : Project)

/-- The longest chain of supertypes along which types are compared. -/
def equivalenceDepth : Nat := 64

/-- The supertypes of a type: those its class declares, and the top type unless one of them is a
class; the bounds of a type parameter, or the nullable top type; none for the top type. -/
def typeSupertypes (type : TypeId) : List TypeId :=
  match p.types.get type with
  | .any _ => []
  | .applied classifier _ _ =>
    let supertypes := (p.decl classifier).supertypes
    let extendsClass := supertypes.any fun supertype =>
      (p.types.get supertype).classifier?.any fun decl => (p.decl decl).kind == .plainClass
    if extendsClass then supertypes else supertypes ++ [TypeTable.any]
  | .param param _ =>
    let bounds := (p.decl param).bounds
    if bounds.isEmpty then [TypeTable.nullableAny] else bounds

def typeName? (type : TypeId) : Option String :=
  (p.types.get type).classifier?.map fun decl => (p.decl decl).name

/-- Loose equivalence of types, looking at no more than `steps` pairs that differ. The top type
equals its nullable form; types with one supertype each are compared by these; other generic types
are compared by name. -/
def typesMatch : Nat → TypeId → TypeId → Bool
  | 0, a, b => a == b
  | steps + 1, a, b =>
    a == b ||
      let (left, right) := (p.types.get a, p.types.get b)
      (left.isAny && right.isAny) ||
        match p.typeSupertypes a, p.typeSupertypes b with
        | [a'], [b'] => typesMatch steps a' b'
        | _, _ =>
          !left.arguments.isEmpty && !right.arguments.isEmpty && p.typeName? a == p.typeName? b

/-- Equivalence of types reached after `depth` supertypes. -/
def typesEquivalent (a b : TypeId) (depth : Nat) : Bool :=
  p.typesMatch (equivalenceDepth + 1 - depth) a b

/-- Whether two declarations would clash in one scope. They have the same name; functions clash
with functions whose parameters match as far as both have some, anything else clashes with
anything but a function. -/
def declsEquivalent (a b : DeclId) : Bool :=
  let (a, b) := (p.decl a, p.decl b)
  a.name == b.name &&
    match a.kind.isFunctionLike, b.kind.isFunctionLike with
    | true, true =>
      (a.params.zip b.params).all fun (left, right) => p.typesEquivalent left.type right.type 0
    | false, false => true
    | _, _ => false

end Project

namespace Pass

variable (pass : Pass)

def clashesAmong (id : DeclId) (scope : Container) (members : List DeclId) :
    List (DeclId × Container) :=
  (members.filter fun member => member != id && pass.project.declsEquivalent id member).map
    fun member => (member, scope)

/-- The clashes of a declaration in a container and those around it, looking at no more than
`steps`. The container that the declaration comes from is passed over, and so is everything from a
class on that has been seen: a class moved into itself comes round again. -/
def clashesFrom (target : Container) (id : DeclId) :
    Nat → List DeclId → Container → List (DeclId × Container)
  | 0, _, _ => []
  | steps + 1, seen, container =>
    let p := pass.project
    let origin := p.nameOfContainer (p.container id)
    match container with
    | .package fragment =>
      if origin = fragment.name then []
      else
        pass.clashesAmong id (.package { fragment with file := none })
          (p.packageMembers fragment.name fragment.module)
    | .decl owner =>
      if owner ∈ seen then []
      else
        let here :=
          if (p.decl owner).kind.isClassLike && origin != p.qualifiedName owner then
            pass.clashesAmong id (.decl owner) (p.memberScope owner)
          else []
        here ++ clashesFrom target id steps (owner :: seen) (pass.containerAfter target owner)

def clashes (target : Container) (id : DeclId) : List (DeclId × Container) :=
  pass.clashesFrom target id chainLimit [] target

def nameClashes : List Finding :=
  match pass.targetContainer? with
  | none => []
  | some target =>
    pass.walked.flatMap fun id =>
      (pass.clashes target id).map fun (other, scope) =>
        (.decl id,
          Message.nameClash.conflict [
            pass.describeDecl id,
            pass.describeDecl other,
            pass.project.describeContainer pass.options.style scope])

end Pass

end Relocation
