import Relocation.Check.Pass
set_option autoImplicit false

/-!
Conflicts at module boundaries, in both directions: code outside the move that will not see the
module of the target, and moved code that names something the module of the target cannot see.
-/

namespace Relocation

namespace Pass

variable (pass : Pass)

/-- The finding about a usage whose file will not see its target, if it is one. Imports and usages
that move as well are left alone. -/
def usageBeyondModule? (location : TargetLocation) (module : ModuleId) (usage : Usage) :
    Option Finding :=
  let p := pass.project
  let reference := p.reference usage.reference
  let test := (location.root p).isTest
  if reference.flags.inImport || pass.isMoving (.reference usage.reference) ||
      p.seesModule reference.file module test then none
  else
    (p.moduleOfFile? reference.file).map fun usageModule =>
      let message : Message :=
        if usageModule = module ∧ test then .usageInProduction else .usageOutsideModule
      (.decl usage.referenced,
        message.conflict [
          pass.describeDecl usage.referenced,
          pass.describeUsage usage.reference,
          pass.describeModule usageModule])

def usagesBeyondModule (external : List Usage) : List Finding :=
  match pass.location? with
  | none => []
  | some location =>
    match (location.root pass.project).module? with
    | none => []
    | some module => external.filterMap (pass.usageBeyondModule? location module)

def withoutReported (findings : List Finding) (external : List Usage) : List Usage :=
  external.filter fun usage =>
    !(findings.any fun finding => finding.1 == .decl usage.referenced)

/-- Whether a candidate of an import is the class that `constructor` belongs to, on another
platform, with the same constructor. -/
def hasConstructor (candidate constructor : DeclId) : Bool :=
  let p := pass.project
  (p.decl constructor).kind == .constructor && (p.decl candidate).kind.isClassLike &&
    (p.constructors candidate).any fun other =>
      p.comparisonText other == p.comparisonText constructor

/-- Whether importing the name of `id` from a module finds the same symbol, perhaps as it is
compiled for another platform. -/
def importFinds (id : DeclId) (module : ModuleId) : Bool :=
  let p := pass.project
  match p.importableName? id with
  | none => true
  | some name =>
    let importable := p.importable id
    let candidates := pass.services.resolveImport name module
    let optional := candidates.any fun candidate =>
      (p.decl candidate).flags.expect && (p.decl candidate).flags.optionalExpectation
    let aliased := (p.decl importable).kind == .typeAlias && candidates.any fun candidate =>
      (p.decl candidate).kind.isClassLike && (p.decl candidate).flags.expect &&
        p.importableName? candidate == p.importableName? importable
    let same := candidates.any fun candidate =>
      p.comparisonText candidate == p.comparisonText importable &&
        (importable == id || pass.hasConstructor candidate id)
    !optional && (aliased || same)

/-- Whether an element can be named from the module of the target. Declarations of the project have
to lie in its scope; others may also be found by an import of `named`. -/
def isInTargetScope (module : ModuleId) (scope : ModuleScope) (named element : DeclId) : Bool :=
  (pass.project.rootOf? element).any scope.contains ||
    (!pass.project.isInProject element && pass.importFinds named module)

/-- Whether a declaration can be named from the module of the target, by itself or as an override
of a member that can. -/
def isNameable (module : ModuleId) (scope : ModuleScope) (id : DeclId) : Bool :=
  pass.isInTargetScope module scope id id || (pass.project.decl id).kind == .typeParameter ||
    (pass.project.deepestOverridden id).any (pass.isInTargetScope module scope id)

def referenceOutOfScope? (module : ModuleId) (scope : ModuleScope) (id : RefId) :
    Option (RefId × Finding) := do
  let reference := pass.project.reference id
  let target ← reference.target
  if (pass.project.decl target).flags.builtin || pass.isMoving (.decl target) ||
    pass.isNameable module scope target then none
  let owner ← reference.owner
  return (id, .decl target,
    Message.referenceOutOfScope.conflict [
      pass.describeDecl target,
      pass.describeDecl owner,
      pass.describeModule module])

/-- Findings about the references in moved code, each with its reference. Code that stays in its
module is left alone. -/
def referencesOutOfScope : List (RefId × Finding) :=
  match pass.targetModule? with
  | none => []
  | some module =>
    let scope := pass.project.platformScope module
    (pass.walked.filter fun id => pass.project.moduleOf? id != some module).flatMap fun id =>
      (pass.project.referencesWithin id).filterMap (pass.referenceOutOfScope? module scope)

def withoutReferences (findings : List (RefId × Finding)) (internal : List Usage) : List Usage :=
  internal.filter fun usage => !(findings.any fun finding => finding.1 == usage.reference)

end Pass

end Relocation
