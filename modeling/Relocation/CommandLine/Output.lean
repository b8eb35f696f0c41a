import Relocation.Check.Move
import Relocation.Json.Value
set_option autoImplicit false

/-!
Results of a check as text for people and as JSON.
-/

namespace Relocation

structure Paint where
  codes : String

namespace Paint

def location : Paint := ⟨"36"⟩

def number : Paint := ⟨"94"⟩

def summary : Paint := ⟨"1"⟩

def severity : Severity → Paint
  | .error => ⟨"1;31"⟩
  | .warning => ⟨"1;33"⟩

def sequence (codes : String) : String := "\x1b[" ++ codes ++ "m"

def reset : String := sequence "0"

/-- Sets a text in a style. Where the text itself resets the style, the style starts anew. -/
def apply (paint : Paint) (text : String) : String :=
  let start := sequence paint.codes
  let inner := Text.replaceAll reset.toList (reset ++ start).toList text.toList
  start ++ String.ofList inner ++ reset

def applyIf (color : Bool) (paint : Paint) (text : String) : String :=
  if color then paint.apply text else text

end Paint

namespace Project

variable (p : Project)

/-- Where a conflict lies: the file and the description of the element. A file is its own place. -/
def locationText (element : Element) : String :=
  let description := p.describeElement .plain element
  match element, p.fileOfElement? element with
  | .file _, _ | _, none => description
  | _, some file => p.filePath file ++ ": " ++ description

def conflictLine (color : Bool) (finding : Finding) : String :=
  let (element, conflict) := finding
  Paint.location.applyIf color (p.locationText element) ++ " - " ++
    (Paint.severity conflict.severity).applyIf color conflict.severity.word ++ " " ++
    Paint.number.applyIf color ("MC" ++ toString conflict.code) ++ ": " ++ conflict.text ++ "\n"

def summaryLine (color : Bool) (count : Nat) : String :=
  match count with
  | 0 => "No conflicts found.\n"
  | 1 => Paint.summary.applyIf color "Found 1 conflict." ++ "\n"
  | count =>
    Paint.summary.applyIf color ("Found " ++ toString count ++ " conflicts.") ++ "\n"

def reportText (color : Bool) (report : Report) : String :=
  String.join (report.findings.map (p.conflictLine color)) ++
    (if report.isEmpty then "" else "\n") ++ summaryLine color report.size

def elementValue : Element → Json.Value
  | .decl id => .object [("kind", .string "decl"), ("id", .number id.index)]
  | .reference id => .object [("kind", .string "reference"), ("id", .number id.index)]
  | .file id => .object [("kind", .string "file"), ("id", .number id.index)]

def findingValue (finding : Finding) : Json.Value :=
  let (element, conflict) := finding
  let file := (p.fileOfElement? element).toList.map fun file =>
    ("file", Json.Value.string (p.filePath file))
  .object ([("element", elementValue element)] ++ file ++ [
    ("description", .string (p.describeElement .plain element)),
    ("code", .number conflict.code),
    ("category", .string conflict.severity.word),
    ("message", .string conflict.text)])

def resultValue (result : CheckResult) : Json.Value :=
  .object [
    ("conflicts", .array (result.report.findings.map p.findingValue)),
    ("errors", .number (result.report.count .error)),
    ("warnings", .number (result.report.count .warning)),
    ("usages", .object [
      ("found", .number result.usagesFound),
      ("remaining", .number result.usagesRemaining.length)])]

def resultJson (pretty : Bool) (result : CheckResult) : String :=
  if pretty then (p.resultValue result).toPretty else (p.resultValue result).toCompact

end Project

end Relocation
