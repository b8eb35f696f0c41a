set_option autoImplicit false

/-!
Identifiers of the parts of a project. Each counts the entries of one arena in order of creation.
-/

namespace Relocation

structure DeclId where
  index : Nat
  deriving DecidableEq, Repr, Inhabited

structure RefId where
  index : Nat
  deriving DecidableEq, Repr, Inhabited

structure FileId where
  index : Nat
  deriving DecidableEq, Repr, Inhabited

structure DirId where
  index : Nat
  deriving DecidableEq, Repr, Inhabited

structure ModuleId where
  index : Nat
  deriving DecidableEq, Repr, Inhabited

structure LibraryId where
  index : Nat
  deriving DecidableEq, Repr, Inhabited

structure SdkId where
  index : Nat
  deriving DecidableEq, Repr, Inhabited

structure TypeId where
  index : Nat
  deriving DecidableEq, Repr, Inhabited

/-- A physical element of a project. Conflicts are recorded against elements, and a move is a list
of elements. -/
inductive Element where
  | decl (id : DeclId)
  | reference (id : RefId)
  | file (id : FileId)
  deriving DecidableEq, Repr

def Element.asDecl? : Element → Option DeclId
  | .decl id => some id
  | _ => none

end Relocation
