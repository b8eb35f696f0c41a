import Relocation.Text.Blank
set_option autoImplicit false

/-!
Formats of the log, by name.
-/

namespace Relocation.CommandLine

inductive LogFormat where
  | text
  | tree
  | json
  deriving DecidableEq, Repr, Inhabited

/-- The format of a name in upper or lower case, with white space around it; text for any other
name. -/
def LogFormat.ofName (name : String) : LogFormat :=
  match String.ofList ((Text.trimBlank name.toList).map Char.toLower) with
  | "tree" => .tree
  | "json" => .json
  | _ => .text

end Relocation.CommandLine
