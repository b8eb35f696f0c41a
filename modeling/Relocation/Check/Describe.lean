import Relocation.Project.Place
set_option autoImplicit false

/-!
Descriptions of declarations, scopes and types for people.

A declaration is described by the word for its kind and its name. Functions and constructors carry
the types of their parameters, so that overloads stay apart. In HTML names are set in bold code,
with the characters that have a meaning there escaped.
-/

namespace Relocation

inductive Style where
  | plain
  | html
  deriving DecidableEq, Repr, Inhabited

def escapeHtml (c : Char) : List Char :=
  match c with
  | '<' => "&lt;".toList
  | '>' => "&gt;".toList
  | '&' => "&amp;".toList
  | '"' => "&quot;".toList
  | c => [c]

def Style.emphasize (style : Style) (text : String) : String :=
  match style with
  | plain => text
  | html => "<b><code>" ++ String.ofList (text.toList.flatMap escapeHtml) ++ "</code></b>"

def commaSeparated (texts : List String) : String := String.intercalate ", " texts

namespace Project

variable (p : Project)

def classifierName (qualified : Bool) (id : DeclId) : String :=
  if qualified then (p.qualifiedName id).text else (p.decl id).name

def varianceWord : Variance → String
  | .invariant => ""
  | .out => "out "
  | .inward => "in "

def nullableMark (nullable : Bool) : String := if nullable then "?" else ""

def bracketed (args : List String) : String :=
  if args.isEmpty then "" else "<" ++ commaSeparated args ++ ">"

mutual

def describeTree (qualified : Bool) : TypeTree → String
  | .any nullable => "Any" ++ nullableMark nullable
  | .param param nullable => (p.decl param).name ++ nullableMark nullable
  | .applied classifier args nullable =>
    p.classifierName qualified classifier ++ bracketed (describeArgs qualified args) ++
      nullableMark nullable

def describeArgs (qualified : Bool) : List TypeTreeArg → List String
  | [] => []
  | .star :: rest => "*" :: describeArgs qualified rest
  | .type variance type :: rest =>
    (varianceWord variance ++ describeTree qualified type) :: describeArgs qualified rest

end

def describeType (type : TypeId) (qualified : Bool) : String :=
  p.describeTree qualified (p.types.tree type)

def describeParams (params : List ValueParam) (qualified : Bool) : String :=
  "(" ++ commaSeparated (params.map fun param => p.describeType param.type qualified) ++ ")"

/-- The short name, with parameter types for functions and constructors. -/
def signature (id : DeclId) : String :=
  let decl := p.decl id
  if decl.kind.isFunctionLike then decl.name ++ p.describeParams decl.params false
  else decl.name

/-- The text by which declarations of different modules are recognised as the same symbol: kind,
qualified name, qualified types. Names of parameters play no part. -/
def comparisonText (id : DeclId) : String :=
  let decl := p.decl id
  let params := if decl.kind.isFunctionLike then p.describeParams decl.params true else ""
  let type :=
    match decl.type with
    | some type => ": " ++ p.describeType type true
    | none => ""
  decl.kind.word ++ " " ++ (p.qualifiedName id).text ++ params ++ type

def describeDecl (style : Style) (id : DeclId) : String :=
  (p.decl id).kind.word ++ " " ++ style.emphasize (p.signature id)

def describeFile (style : Style) (id : FileId) : String :=
  "file " ++ style.emphasize (p.file id).name

/-- The declaration around a reference, or its file. -/
def describeUsage (style : Style) (id : RefId) : String :=
  match (p.reference id).owner with
  | some owner => p.describeDecl style owner
  | none => p.describeFile style (p.reference id).file

def describeElement (style : Style) : Element → String
  | .decl id => p.describeDecl style id
  | .file id => p.describeFile style id
  | .reference id => p.describeUsage style id

def describeContainer (style : Style) : Container → String
  | .decl id => p.describeDecl style id
  | .package fragment =>
    "package " ++ style.emphasize (if fragment.name.isRoot then "<root>" else fragment.name.text)

def describeModule (style : Style) (id : ModuleId) : String :=
  style.emphasize (p.module id).name

end Project

end Relocation
