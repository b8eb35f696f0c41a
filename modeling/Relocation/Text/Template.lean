import Relocation.Text.Uppercase
set_option autoImplicit false

/-!
Message templates with numbered placeholders `{0}`, `{1}`, ….

Arguments are put in one after the other, each at every place where its placeholder then stands.
An argument that spells the placeholder of a later argument is therefore filled in turn; a
placeholder without an argument stays as it is.
-/

namespace Relocation.Text

/-- Replaces `pattern` from left to right, never inside a replacement and without overlap. `skip`
counts the characters still to drop of an occurrence already replaced. -/
def replaceFrom (pattern replacement : List Char) (skip : Nat) : List Char → List Char
  | [] => []
  | c :: rest =>
    match skip with
    | skip + 1 => replaceFrom pattern replacement skip rest
    | 0 =>
      if pattern.isPrefixOf (c :: rest) then
        replacement ++ replaceFrom pattern replacement (pattern.length - 1) rest
      else
        c :: replaceFrom pattern replacement 0 rest

def replaceAll (pattern replacement text : List Char) : List Char :=
  replaceFrom pattern replacement 0 text

def placeholder (index : Nat) : List Char := '{' :: (toString index).toList ++ ['}']

/-- Puts the arguments `index`, `index + 1`, … into the text. -/
def fillFrom (index : Nat) (text : List Char) : List String → List Char
  | [] => text
  | argument :: rest =>
    fillFrom (index + 1) (replaceAll (placeholder index) argument.toList text) rest

def fill (template : String) (arguments : List String) : String :=
  String.ofList (fillFrom 0 template.toList arguments)

/-- The text with its first character in upper case and the rest untouched. -/
def capitalize (text : String) : String :=
  match text.toList with
  | [] => ""
  | c :: rest => String.ofList (uppercase c ++ rest)

end Relocation.Text
