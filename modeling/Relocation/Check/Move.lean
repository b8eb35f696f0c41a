import Relocation.Check.Pipeline
import Relocation.Manifest.Move
set_option autoImplicit false

/-!
Checking a whole request to move. The declarations named go through one pass together; each file
goes through one of its own.
-/

namespace Relocation

/-- What the check of a request has found, and the usages it leaves for the move to retarget. -/
structure CheckResult where
  report : Report
  usagesFound : Nat
  usagesRemaining : List Usage
  deriving DecidableEq, Repr

inductive CheckError where
  | unresolved (problem : Manifest.Problem)
  | loneHierarchy (fault : LoneHierarchy)

def filesIn (elements : List Element) : List FileId :=
  elements.filterMap fun
    | .file id => some id
    | _ => none

namespace Project

variable (p : Project) (services : Services) (options : CheckOptions)

/-- Checks elements that go to a target. -/
def checkElements (elements : List Element) (target : Target) :
    Except LoneHierarchy CheckResult := do
  let usages := p.collectUsages services elements
  let decls := elements.filterMap Element.asDecl?
  let start : Report × List Usage := ({}, [])
  let (report, remaining) ←
    if decls.isEmpty then pure start
    else
      let own := usages.filter fun usage =>
        decls.any fun decl => p.isAncestor (.decl decl) (.decl usage.referenced)
      let pass : Pass :=
        { project := p, services, options, target, elements := decls, moving := elements }
      let state ← pass.check (.ofUsages own {})
      pure (state.report, state.usages)
  let (report, remaining) ← (filesIn elements).foldlM
    (fun (report, remaining) file => do
      let own := usages.filter fun usage => p.fileOf? usage.referenced == some file
      let (report, left) ← checkFile p services options target elements file own report
      return (report, remaining ++ left.getD own))
    (report, remaining)
  return { report, usagesFound := usages.length, usagesRemaining := remaining }

/-- Checks a request to move. -/
def checkMove (request : Manifest.MoveEntry) : Except CheckError CheckResult := do
  let (elements, target) ← (request.resolve p).mapError .unresolved
  (p.checkElements services options elements target).mapError .loneHierarchy

end Project

end Relocation
