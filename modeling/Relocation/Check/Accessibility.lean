import Relocation.Check.Pass
import Relocation.Check.Visible
set_option autoImplicit false

/-!
Conflicts of visibility: code outside the move that loses sight of a moved declaration, and moved
code that loses sight of something it names. What cannot be seen today is not blamed on the move.
-/

namespace Relocation

namespace Pass

variable (pass : Pass)

/-- Whether public declarations stay public at the target: in a file that exists, or in a
declaration with public classes around it only. -/
def isPublicTarget : Bool :=
  let p := pass.project
  match pass.target with
  | .file _ => true
  | .decl id =>
    (p.declChain (.decl id)).all fun owner =>
      !(p.decl owner).kind.isClassLike || (p.decl owner).visibility == .pub
  | .directory _ _ | .newFile _ _ _ => false

/-- A source declaration as host code sees it, where that differs: private classes at the top level
belong to the package, and protected members to the package as well. -/
def hostVisibility? (id : DeclId) : Option Visibility :=
  let decl := pass.project.decl id
  match decl.visibility, decl.parent with
  | .priv, .file _ => if decl.kind.isClassLike then some .pkg else none
  | .prot, _ => some .protPkg
  | _, _ => none

/-- The declaration around a usage that has to be looked at. References outside code, moved
references, host declarations, and public declarations that stay public are left alone. -/
def exposedOwner? (usage : Usage) : Option DeclId :=
  let reference := pass.project.reference usage.reference
  let referenced := pass.project.decl usage.referenced
  if reference.flags.nonCode || pass.isMoving (.reference usage.reference) || referenced.isHost ||
      (referenced.hasVisibility && referenced.visibility == .pub && pass.isPublicTarget) then none
  else reference.owner

/-- The usages to look at with the declarations around them, for each pair of a referenced and a
referring declaration the first one. -/
def exposedUsages (external : List Usage) : List (Usage × DeclId) :=
  (external.filterMap fun usage => (pass.exposedOwner? usage).map fun owner => (usage, owner))
    |>.eraseDupsBy fun a b => a.1.referenced == b.1.referenced && a.2 == b.2

/-- Whether a declaration is visible to `owner` today and will not be once moved. -/
def isLost (target : Container) (referenced owner : DeclId) : Bool :=
  let p := pass.project
  let visibility := if (p.decl owner).isHost then pass.hostVisibility? referenced else none
  match DeclView.moved? p referenced target visibility with
  | none => false
  | some moved =>
    ((DeclView.current referenced).withVisibility visibility).isVisible p (.decl owner) &&
      !moved.isVisible p (.decl owner)

def lostUsages (external : List Usage) : List Finding :=
  match pass.targetContainer? with
  | none => []
  | some target =>
    ((pass.exposedUsages external).filter fun (usage, owner) =>
      pass.isLost target usage.referenced owner).map fun (usage, owner) =>
        (.reference usage.reference,
          Message.inaccessible.conflict [
            pass.describeDecl owner, pass.describeDecl usage.referenced])

variable (target : Container)

/-- Whether some class around `referrer` after the move, looking at no more than `steps`
declarations, inherits from the class of a protected declaration or from the class that this class
is the companion of. -/
def inheritsAfter (owner companionOwner : Option DeclId) : Nat → DeclId → Bool
  | 0, _ => false
  | steps + 1, referrer =>
    match pass.classAfter? target referrer with
    | none => false
    | some referring =>
      if companionOwner.any fun outer => pass.project.isSubclassOf referring outer then true
      else
        match owner with
        | none => false
        | some owner =>
          pass.project.isSubclassOf referring owner ||
            match pass.containerAfter target referrer with
            | .decl outer => inheritsAfter (some owner) companionOwner steps outer
            | .package _ => false

def isProtectedAfter (id referrer : DeclId) : Bool :=
  let owner := pass.classAfter? target id
  let companionOwner :=
    (owner.filter fun owner => (pass.project.decl owner).flags.companion).bind
      (pass.classAfter? target)
  pass.inheritsAfter target owner companionOwner chainLimit referrer

/-- The declaration from which a reference is judged: a call in a supertype list is made by the
primary constructor. -/
def referrer? (id : RefId) : Option DeclId :=
  let reference := pass.project.reference id
  reference.owner.map fun owner =>
    if (pass.project.decl owner).kind.isClassLike && reference.flags.inSupertypeList then
      (pass.project.primaryConstructor? owner).getD owner
    else owner

def staysVisible (id : DeclId) (reference : RefId) : Bool :=
  let p := pass.project
  let visibility := (p.decl id).visibility.normalize
  if visibility = .pub then true
  else
    match pass.referrer? reference with
    | none => true
    | some referrer =>
      if !(DeclView.current id).isVisible p (.decl referrer) then true
      else if visibility = .prot then pass.isProtectedAfter target id referrer
      else (DeclView.current id).isVisible p target

/-- Whether the target of a reference, and the class of a constructor, stay visible. -/
def staysAccessible (id : DeclId) (reference : RefId) : Bool :=
  let decl := pass.project.decl id
  pass.staysVisible target id reference &&
    match decl.kind, decl.parent with
    | .constructor, .decl owner => pass.staysVisible target owner reference
    | _, _ => true

def lostReference? (moved : DeclId) (id : RefId) : Option Finding := do
  let referenced ← (pass.project.reference id).target
  if pass.isMoving (.decl referenced) || !(pass.project.decl referenced).hasVisibility ||
    pass.staysAccessible target referenced id then none
  return (.reference id,
    Message.inaccessible.conflict [pass.describeDecl moved, pass.describeDecl referenced])

def lostReferences : List Finding :=
  match pass.targetContainer? with
  | none => []
  | some target =>
    pass.walked.flatMap fun moved =>
      (pass.project.referencesWithin moved).filterMap (pass.lostReference? target moved)

end Pass

end Relocation
