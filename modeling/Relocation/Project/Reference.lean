import Relocation.Project.Id
set_option autoImplicit false

/-!
Occurrences of names in source code.
-/

namespace Relocation

structure RefFlags where
  inImport : Bool := false
  /-- The type named by an entry of a supertype list. -/
  inSupertypeList : Bool := false
  /-- Found in a comment or a string rather than in code. -/
  nonCode : Bool := false
  deriving DecidableEq, Repr, Inhabited

structure Reference where
  file : FileId
  /-- The innermost declaration around the reference. -/
  owner : Option DeclId
  /-- What the name resolves to, if it resolves. -/
  target : Option DeclId
  text : String
  offset : Nat
  flags : RefFlags
  deriving Repr, Inhabited

end Relocation
