import Relocation.Manifest.TypeText
set_option autoImplicit false

/-!
What can be wrong with a manifest that is well-formed JSON: names that lead nowhere, and entries
that do not fit together.
-/

namespace Relocation.Manifest

inductive TypeProblem where
  | malformed (fault : TypeText.Fault)
  | unknownClassifier (name : String)

def TypeProblem.message (text : String) : TypeProblem → String
  | malformed fault => fault.message text.toList
  | unknownClassifier name => "unknown classifier '" ++ name ++ "'"

inductive Problem where
  | unknownModule (name : String)
  | unknownLibrary (name : String)
  | unknownSdk (name : String)
  | unknownDirectory (path : String)
  | unknownFile (path : String)
  | unknownDecl (name : String)
  /-- A directory that belongs to no source root, or to several. -/
  | ambiguousRoot (path : String)
  | invalidType (text : String) (problem : TypeProblem)
  /-- A member of a declaration that cannot have such members. -/
  | invalidMember (name : String)

def Problem.message : Problem → String
  | unknownModule name => "unknown module '" ++ name ++ "'"
  | unknownLibrary name => "unknown library '" ++ name ++ "'"
  | unknownSdk name => "unknown SDK '" ++ name ++ "'"
  | unknownDirectory path => "unknown directory '" ++ path ++ "'"
  | unknownFile path => "unknown file '" ++ path ++ "'"
  | unknownDecl name => "unknown declaration '" ++ name ++ "'"
  | ambiguousRoot path =>
    "directory '" ++ path ++ "' must name exactly one of module, library or sdk"
  | invalidType text problem => "invalid type '" ++ text ++ "': " ++ problem.message text
  | invalidMember name => "declaration '" ++ name ++ "' cannot contain members of this kind"

end Relocation.Manifest
