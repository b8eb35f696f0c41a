set_option autoImplicit false

/-!
Dotted names such as `com.example.Shape`. The empty name is the root package.
-/

namespace Relocation

structure QualifiedName where
  text : String
  deriving DecidableEq, Repr, Inhabited

namespace QualifiedName

def root : QualifiedName := ⟨""⟩

def isRoot (name : QualifiedName) : Bool := name.text.isEmpty

/-- The name one level below; right under the root it is the bare segment. -/
def child (name : QualifiedName) (segment : String) : QualifiedName :=
  if name.isRoot then ⟨segment⟩ else ⟨name.text ++ "." ++ segment⟩

def splitLastDot : List Char → Option (List Char × List Char)
  | [] => none
  | c :: rest =>
    match splitLastDot rest with
    | some (before, after) => some (c :: before, after)
    | none => if c = '.' then some ([], rest) else none

def parent? (name : QualifiedName) : Option QualifiedName :=
  if name.isRoot then none
  else
    match splitLastDot name.text.toList with
    | some (before, _) => some ⟨String.ofList before⟩
    | none => some root

def shortName (name : QualifiedName) : String :=
  match splitLastDot name.text.toList with
  | some (_, after) => String.ofList after
  | none => name.text

def segments (name : QualifiedName) : List String :=
  (name.text.splitOn ".").filter fun segment => !segment.isEmpty

end QualifiedName

end Relocation
