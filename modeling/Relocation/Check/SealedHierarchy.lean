import Relocation.Check.Pass
set_option autoImplicit false

/-!
Conflicts of sealed hierarchies.

Under the strict rule a sealed class and its inheritors share one file, so the whole hierarchy has
to move at once. Under the relaxed rule they share a package of a module: some other member of the
hierarchy has to be at the target already, and members left behind are worth a warning.
-/

namespace Relocation

def hierarchyLimit : Nat := 10000

/-- A class takes part in a sealed hierarchy in which no other class is found. -/
structure LoneHierarchy where
  name : String
  deriving DecidableEq, Repr

def LoneHierarchy.message (fault : LoneHierarchy) : String :=
  "sealed hierarchy of " ++ fault.name ++ " has no other members"

namespace Pass

variable (pass : Pass)

def isSealed (id : DeclId) : Bool := (pass.project.decl id).isSealed

/-- The inheritors of a sealed class, descending through those that are sealed themselves. -/
def sealedSubclasses (root : DeclId) : List DeclId :=
  let inheritors := fun id => if pass.isSealed id then pass.services.directInheritors id else []
  (Walk.reachable inheritors pass.project.declDepth [root]).filter (· != root)

/-- The class from which the hierarchy of a class-like element is judged: the element itself if it
is sealed, else its superclass if that is sealed. -/
def strictRoot? (element : DeclId) : Option DeclId :=
  if !(pass.project.decl element).kind.isClassLike then none
  else if pass.isSealed element then some element
  else (pass.project.superclass? element).filter pass.isSealed

def strictFinding (element root : DeclId) : Finding :=
  let p := pass.project
  (.decl element,
    if element = root then Message.sealedWithoutSubclasses.conflict [(p.decl root).name]
    else
      Message.sealedWithoutParent.conflict [
        Text.capitalize (p.decl element).kind.word, (p.decl element).name, (p.decl root).name])

/-- Findings about elements whose hierarchies do not move as a whole. Classes of a hierarchy
already looked at are passed over. -/
def strictFindings (seen : List DeclId) : List DeclId → List Finding
  | [] => []
  | element :: rest =>
    if element ∈ seen then strictFindings seen rest
    else
      match pass.strictRoot? element with
      | none => strictFindings (element :: seen) rest
      | some root =>
        let subclasses := pass.sealedSubclasses root
        if subclasses.isEmpty then strictFindings (element :: seen) rest
        else
          let findings := strictFindings (subclasses ++ root :: element :: seen) rest
          if (root :: subclasses).all fun id => pass.isMoving (.decl id) then findings
          else pass.strictFinding element root :: findings

def sealedParents (id : DeclId) : List DeclId :=
  ((pass.project.superclass? id).toList ++ pass.project.superInterfaces id).filter pass.isSealed

/-- The order of classes by name, then by age. -/
def comesBefore (a b : DeclId) : Bool :=
  let name := fun id => (pass.project.decl id).name
  if name a = name b then a.index ≤ b.index else name a < name b

def subclasses (id : DeclId) : List DeclId :=
  ((pass.services.directInheritors id).mergeSort pass.comesBefore).eraseReps

def sealedNeighbours (id : DeclId) : List DeclId :=
  pass.sealedParents id ++ if pass.isSealed id then pass.subclasses id else []

/-- A walk through sealed hierarchies: every class seen in this pass, and the members found in the
hierarchy under way, both newest first. -/
structure HierarchyWalk where
  seen : List DeclId
  members : List DeclId := []

/-- Walks on to a class and to everything new beyond it, until the limit is reached. -/
def visitHierarchy : Nat → HierarchyWalk → DeclId → HierarchyWalk
  | 0, walk, _ => walk
  | depth + 1, walk, id =>
    if hierarchyLimit ≤ walk.members.length ∨ id ∈ walk.seen then walk
    else
      let isMember := pass.isSealed id || !(pass.sealedParents id).isEmpty
      let walk : HierarchyWalk :=
        { seen := id :: walk.seen
          members := if isMember then id :: walk.members else walk.members }
      (pass.sealedNeighbours id).foldl (visitHierarchy depth) walk

/-- The source members of the hierarchy of a class that were not seen before, and all classes seen
by then. -/
def hierarchyMembers (seen : List DeclId) (id : DeclId) : List DeclId × List DeclId :=
  let walk := pass.visitHierarchy pass.project.declDepth { seen } id
  (walk.members.reverse.filter fun member => (pass.project.decl member).language == .source,
    walk.seen)

structure Residence where
  module : ModuleId
  package : QualifiedName
  directory : DirId
  deriving DecidableEq, Repr

def residence? (id : DeclId) : Option Residence := do
  let file ← pass.project.fileOf? id
  let module ← pass.project.moduleOfFile? file
  return ⟨module, pass.project.packageOfFile file, (pass.project.file file).directory⟩

/-- Where moved classes will live. For a directory this is the package of the directory, whatever
package the new file is to have. -/
def targetResidence? : Option Residence := do
  let module ← pass.targetModule?
  let package ←
    match pass.target with
    | .directory directory _ | .newFile directory _ _ =>
      some (pass.project.directory directory).package
    | target => target.package? pass.project
  let location ← pass.location?
  return ⟨module, package, location.inDirectory pass.project⟩

def packageWord (name : QualifiedName) : String := if name.isRoot then "default" else name.text

def memberNames (ids : List DeclId) : String :=
  commaSeparated (ids.map fun id => (pass.project.qualifiedName id).text)

def relaxedConflict? (id : DeclId) (others : List DeclId) : Option Conflict := do
  let p := pass.project
  let target ← pass.targetResidence?
  if !(others.any fun other => pass.residence? other == some target) then
    let package := (pass.target.package? p).getD .root
    return Message.hierarchyNotAtTarget.conflict [
      (p.decl id).name,
      packageWord package,
      (p.module target.module).name,
      pass.memberNames (id :: others)]
  let source ← pass.residence? id
  let remaining := others.filter fun other =>
    pass.residence? other == some source && !pass.isMoving (.decl other)
  if (target.package = source.package ∧ target.module = source.module) ∨ remaining.isEmpty then
    none
  return Message.hierarchyLeftBehind.conflict [
    (p.decl id).name,
    packageWord source.package,
    (p.module source.module).name,
    pass.memberNames remaining]

def inHierarchy (id : DeclId) : Bool :=
  !(pass.sealedParents id).isEmpty || (pass.isSealed id && !(pass.subclasses id).isEmpty)

/-- Findings about elements torn from their hierarchies. Every hierarchy is walked through once, so
only its first element is looked at. -/
def relaxedFindings (seen : List DeclId) : List DeclId → Except LoneHierarchy (List Finding)
  | [] => .ok []
  | element :: rest =>
    if !(pass.project.decl element).kind.isClassLike ∨ element ∈ seen ∨
        !pass.inHierarchy element then
      relaxedFindings seen rest
    else
      let (members, seen) := pass.hierarchyMembers seen element
      let others := members.filter (· != element)
      if others.isEmpty then .error ⟨(pass.project.decl element).name⟩
      else do
        let findings ← relaxedFindings seen rest
        if others.all fun other => pass.isMoving (.decl other) then return findings
        return ((pass.relaxedConflict? element others).map fun conflict =>
          (.decl element, conflict)).toList ++ findings

def hierarchyFindings : Except LoneHierarchy (List Finding) :=
  if pass.options.language.sealedInheritorsInSamePackage then pass.relaxedFindings [] pass.elements
  else .ok (pass.strictFindings [] pass.elements)

end Pass

end Relocation
