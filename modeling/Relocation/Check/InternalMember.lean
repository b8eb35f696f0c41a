import Relocation.Check.Pass
set_option autoImplicit false

/-!
Conflicts of internal members: members of moved classes that are internal to their module, and are
used from modules that neither are the module of the target nor implement it.
-/

namespace Relocation

namespace Project

variable (p : Project)

/-- The internal members of a class, then those of the classes nested in it. -/
def internalMembersWithin : Nat → DeclId → List DeclId
  | 0, _ => []
  | depth + 1, id =>
    ((p.members id).filter fun member => (p.decl member).visibility == .internal) ++
      ((p.members id).filter fun member => (p.decl member).kind.isClassLike).flatMap
        (internalMembersWithin depth)

def internalMembers (id : DeclId) : List DeclId := p.internalMembersWithin p.declDepth id

end Project

namespace Pass

variable (pass : Pass)

def movedInternalMembers : List DeclId :=
  ((pass.elements.filter fun id => (pass.project.decl id).kind.isClassLike).flatMap
    pass.project.internalMembers).eraseDups

def foreignReference? (module : ModuleId) (member : DeclId) (id : RefId) : Option Finding := do
  let usageModule ← pass.project.moduleOfFile? (pass.project.reference id).file
  if usageModule = module ∨ pass.project.implementsModule usageModule module ∨
    pass.isMoving (.reference id) then none
  return (.reference id,
    Message.internalInaccessible.conflict [pass.describeUsage id, pass.describeDecl member])

def foreignReferences : List Finding :=
  match pass.targetModule? with
  | none => []
  | some module =>
    pass.movedInternalMembers.flatMap fun member =>
      (pass.services.referencesTo member).filterMap (pass.foreignReference? module member)

end Pass

end Relocation
