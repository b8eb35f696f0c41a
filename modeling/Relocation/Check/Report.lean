import Relocation.Check.Message
import Relocation.Project.Id
set_option autoImplicit false

/-!
Reports: conflicts collected under the elements they concern.

Elements and the conflicts of each stand in the order in which they were found. A conflict already
recorded for its element is not recorded again, so detectors may find the same thing twice.
-/

namespace Relocation

abbrev Finding : Type := Element × Conflict

structure Report where
  entries : List (Element × List Conflict) := []
  deriving DecidableEq, Repr

namespace Report

/-- Adds a conflict at the end of the list of its element, unless it is there. -/
def insert (element : Element) (conflict : Conflict) :
    List (Element × List Conflict) → List (Element × List Conflict)
  | [] => [(element, [conflict])]
  | (other, conflicts) :: rest =>
    if other = element then
      (other, if conflict ∈ conflicts then conflicts else conflicts ++ [conflict]) :: rest
    else (other, conflicts) :: insert element conflict rest

def push (report : Report) (finding : Finding) : Report :=
  ⟨insert finding.1 finding.2 report.entries⟩

def pushAll (report : Report) (findings : List Finding) : Report := findings.foldl push report

def findings (report : Report) : List Finding :=
  report.entries.flatMap fun (element, conflicts) => conflicts.map fun conflict =>
    (element, conflict)

def extend (report other : Report) : Report := report.pushAll other.findings

def isEmpty (report : Report) : Bool := report.entries.isEmpty

def elements (report : Report) : List Element := report.entries.map Prod.fst

def contains (report : Report) (element : Element) : Bool := report.elements.contains element

def get (report : Report) (element : Element) : List Conflict :=
  (report.entries.lookup element).getD []

def conflicts (report : Report) : List Conflict := report.entries.flatMap Prod.snd

def size (report : Report) : Nat := report.conflicts.length

def count (report : Report) (severity : Severity) : Nat :=
  report.conflicts.countP fun conflict => conflict.severity == severity

def hasErrors (report : Report) : Bool :=
  report.conflicts.any fun conflict => conflict.severity == .error

end Report

end Relocation
