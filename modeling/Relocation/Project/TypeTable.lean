import Relocation.Project.Id
set_option autoImplicit false

/-!
Interned types. Equal shapes share one entry of the table, so comparing identifiers compares types.
An entry refers to others by their identifiers, which may stand for entries that are added later, and
`TypeTable.tree` unfolds one into a tree.
-/

namespace Relocation

inductive Variance where
  | invariant
  | out
  | inward
  deriving DecidableEq, Repr, Inhabited

inductive TypeArg where
  | type (variance : Variance) (id : TypeId)
  | star
  deriving DecidableEq, Repr

inductive TypeShape where
  /-- The top type. -/
  | any (nullable : Bool)
  | applied (classifier : DeclId) (args : List TypeArg) (nullable : Bool)
  | param (decl : DeclId) (nullable : Bool)
  deriving DecidableEq, Repr

instance : Inhabited TypeShape := ⟨.any false⟩

namespace TypeShape

def isAny : TypeShape → Bool
  | any _ => true
  | _ => false

def isNullable : TypeShape → Bool
  | any nullable | applied _ _ nullable | param _ nullable => nullable

def arguments : TypeShape → List TypeArg
  | applied _ args _ => args
  | _ => []

def classifier? : TypeShape → Option DeclId
  | applied decl _ _ => some decl
  | param decl _ => some decl
  | any _ => none

/-- The class of an applied type; a type parameter is no class. -/
def class? : TypeShape → Option DeclId
  | applied decl _ _ => some decl
  | _ => none

def asNullable : TypeShape → TypeShape
  | any _ => any true
  | applied classifier args _ => applied classifier args true
  | param decl _ => param decl true

end TypeShape

mutual

inductive TypeTree where
  | any (nullable : Bool)
  | applied (classifier : DeclId) (args : List TypeTreeArg) (nullable : Bool)
  | param (decl : DeclId) (nullable : Bool)

inductive TypeTreeArg where
  | type (variance : Variance) (tree : TypeTree)
  | star

end

instance : Inhabited TypeTree := ⟨.any false⟩

def TypeTree.isNullable : TypeTree → Bool
  | .any nullable | .applied _ _ nullable | .param _ nullable => nullable

structure TypeTable where
  shapes : Array TypeShape
  deriving Repr

namespace TypeTable

def any : TypeId := ⟨0⟩

def nullableAny : TypeId := ⟨1⟩

/-- The table of a project without types; the top type and its nullable form are always there. -/
def empty : TypeTable := ⟨#[.any false, .any true]⟩

instance : Inhabited TypeTable := ⟨empty⟩

def get (table : TypeTable) (id : TypeId) : TypeShape := table.shapes.getD id.index default

def intern (table : TypeTable) (shape : TypeShape) : TypeId × TypeTable :=
  match table.shapes.idxOf? shape with
  | some index => (⟨index⟩, table)
  | none => (⟨table.shapes.size⟩, ⟨table.shapes.push shape⟩)

def classType (table : TypeTable) (decl : DeclId) : TypeId × TypeTable :=
  table.intern (.applied decl [] false)

def paramType (table : TypeTable) (decl : DeclId) : TypeId × TypeTable :=
  table.intern (.param decl false)

def nullable (table : TypeTable) (id : TypeId) : TypeId × TypeTable :=
  table.intern (table.get id).asNullable

/-- Unfolds an entry, going at most `depth` entries deep. -/
def treeWithin (table : TypeTable) : Nat → TypeId → TypeTree
  | 0, _ => default
  | depth + 1, id =>
    match table.get id with
    | .any nullable => .any nullable
    | .param decl nullable => .param decl nullable
    | .applied classifier args nullable =>
      let unfolded := args.map fun
        | .star => TypeTreeArg.star
        | .type variance id => .type variance (table.treeWithin depth id)
      .applied classifier unfolded nullable

/-- The type written out. A chain of types, each an argument of the one before, passes no entry twice
unless it runs in a circle, so a depth of the number of entries is enough. -/
def tree (table : TypeTable) (id : TypeId) : TypeTree := table.treeWithin table.shapes.size id

end TypeTable

end Relocation
