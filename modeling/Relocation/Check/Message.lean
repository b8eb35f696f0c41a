import Relocation.Text.Template
set_option autoImplicit false

/-!
The messages of a check, each with a number, a severity and a template, and the conflicts that are
made from them. All conflicts are advice; the severity says how urgent it is.
-/

namespace Relocation

inductive Severity where
  | warning
  | error
  deriving DecidableEq, Repr, Inhabited

def Severity.word : Severity → String
  | warning => "warning"
  | error => "error"

structure Message where
  code : Nat
  severity : Severity
  template : String
  deriving DecidableEq, Repr, Inhabited

structure Conflict where
  code : Nat
  severity : Severity
  text : String
  deriving DecidableEq, Repr, Inhabited

namespace Message

def usageOutsideModule : Message where
  code := 1001
  severity := .error
  template := "\x7b0\x7d referenced in \x7b1\x7d will not be accessible from module \x7b2\x7d"

def usageInProduction : Message where
  code := 1002
  severity := .error
  template := "\x7b0\x7d referenced in \x7b1\x7d will not be accessible from the production " ++
    "code of module \x7b2\x7d"

def referenceOutOfScope : Message where
  code := 1003
  severity := .error
  template := "\x7b0\x7d, referenced in \x7b1\x7d, will not be accessible in module \x7b2\x7d"

def inaccessible : Message where
  code := 1101
  severity := .error
  template := "\x7b0\x7d uses \x7b1\x7d which will be inaccessible after move"

def internalInaccessible : Message where
  code := 1102
  severity := .error
  template := "\x7b0\x7d uses internal \x7b1\x7d which will be inaccessible after move"

def sealedWithoutSubclasses : Message where
  code := 1201
  severity := .error
  template := "sealed class '\x7b0\x7d' must be moved with all its subclasses"

def sealedWithoutParent : Message where
  code := 1202
  severity := .error
  template := "\x7b0\x7d '\x7b1\x7d' must be moved with sealed parent class '\x7b2\x7d' and all " ++
    "its subclasses"

def hierarchyNotAtTarget : Message where
  code := 1203
  severity := .error
  template := "sealed hierarchy of '\x7b0\x7d' would be broken: none of its members reside in " ++
    "package '\x7b1\x7d' of module '\x7b2\x7d'. Hierarchy members: \x7b3\x7d"

def hierarchyLeftBehind : Message where
  code := 1204
  severity := .warning
  template := "moving '\x7b0\x7d' leaves other members of its sealed hierarchy behind in " ++
    "package '\x7b1\x7d' of module '\x7b2\x7d': \x7b3\x7d"

def nameClash : Message where
  code := 1301
  severity := .error
  template := "following declarations would clash: to move \x7b0\x7d and destination \x7b1\x7d " ++
    "declared in scope \x7b2\x7d"

def catalogue : List Message := [
  usageOutsideModule, usageInProduction, referenceOutOfScope, inaccessible, internalInaccessible,
  sealedWithoutSubclasses, sealedWithoutParent, hierarchyNotAtTarget, hierarchyLeftBehind,
  nameClash]

def ofCode? (code : Nat) : Option Message := catalogue.find? fun message => message.code == code

def conflict (message : Message) (arguments : List String) : Conflict where
  code := message.code
  severity := message.severity
  text := Text.capitalize (Text.fill message.template arguments)

end Message

end Relocation
