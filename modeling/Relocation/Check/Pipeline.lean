import Relocation.Check.Accessibility
import Relocation.Check.InternalMember
import Relocation.Check.ModuleBoundary
import Relocation.Check.NameClash
import Relocation.Check.SealedHierarchy
set_option autoImplicit false

/-!
The detectors in their order.

A usage that a detector has explained is dropped, so that later detectors do not see it and the
move does not retarget it: those of declarations out of reach of other modules, and those in moved
code that cannot name their target.
-/

namespace Relocation

structure CheckState where
  external : List Usage := []
  internal : List Usage := []
  report : Report := {}
  deriving DecidableEq, Repr

namespace CheckState

def ofUsages (usages : List Usage) (report : Report) : CheckState where
  external := externalUsages usages
  internal := internalUsages usages
  report := report

/-- The usages left, external ones first. -/
def usages (state : CheckState) : List Usage := state.external ++ state.internal

end CheckState

namespace Pass

variable (pass : Pass)

def check (state : CheckState) : Except LoneHierarchy CheckState := do
  let beyond := pass.usagesBeyondModule state.external
  let external := withoutReported beyond state.external
  let outOfScope := pass.referencesOutOfScope
  let internal := withoutReferences outOfScope state.internal
  let hierarchies ← pass.hierarchyFindings
  let findings :=
    beyond ++ outOfScope.map Prod.snd ++ pass.lostUsages external ++ pass.lostReferences ++
      pass.foreignReferences ++ hierarchies ++ pass.nameClashes
  return { external, internal, report := state.report.pushAll findings }

end Pass

/-- Checks a file that moves as a whole: a pass over its top-level declarations, with the usages
of what is in the file. Returns the report, and the usages left if any was dropped. -/
def checkFile (project : Project) (services : Services) (options : CheckOptions)
    (target : Target) (moving : List Element) (file : FileId) (usages : List Usage)
    (report : Report) : Except LoneHierarchy (Report × Option (List Usage)) :=
  let elements := project.topLevel file
  if elements.isEmpty then .ok (report, none)
  else do
    let pass : Pass := { project, services, options, target, elements, moving }
    let before := CheckState.ofUsages usages report
    let after ← pass.check before
    let dropped := after.external.length != before.external.length ||
      after.internal.length != before.internal.length
    return (after.report, if dropped then some after.usages else none)

end Relocation
