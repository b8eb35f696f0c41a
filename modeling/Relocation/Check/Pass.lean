import Relocation.Check.Describe
import Relocation.Check.Report
import Relocation.Manifest.Entry
import Relocation.Project.Target
import Relocation.Project.Usage
set_option autoImplicit false

/-!
One pass of a check: the declarations it looks at, everything that moves with them, and the target.

The containers of moved declarations can be asked for as they will be after the move. Only
declarations that are moved themselves get the target as their container; what is nested in them
keeps its own.
-/

namespace Relocation

structure CheckOptions where
  language : LanguageSettings := {}
  style : Style := .plain
  deriving DecidableEq, Repr, Inhabited

structure Pass where
  project : Project
  services : Services
  options : CheckOptions
  target : Target
  /-- The declarations that this pass looks at. -/
  elements : List DeclId
  /-- Everything that moves, here or in another pass. -/
  moving : List Element
  /-- Moved declarations that are not looked into. -/
  skipped : List DeclId := []

namespace Pass

/-- A pass in which nothing moves but the declarations it looks at. -/
def ofDecls (project : Project) (services : Services) (options : CheckOptions) (target : Target)
    (elements : List DeclId) : Pass :=
  { project, services, options, target, elements, moving := elements.map .decl }

variable (pass : Pass)

def isMoving (element : Element) : Bool := pass.project.isInside pass.moving element

def walked : List DeclId := pass.elements.filter fun id => !pass.skipped.contains id

def location? : Option TargetLocation := pass.target.location? pass.project

def targetModule? : Option ModuleId := pass.target.module? pass.project

def targetContainer? : Option Container := pass.target.container? pass.project

def describeDecl (id : DeclId) : String := pass.project.describeDecl pass.options.style id

def describeUsage (id : RefId) : String := pass.project.describeUsage pass.options.style id

def describeModule (id : ModuleId) : String := pass.project.describeModule pass.options.style id

variable (target : Container)

def containerAfter (id : DeclId) : Container :=
  if pass.moving.contains (.decl id) then target else pass.project.container id

/-- The innermost class-like declaration from a container outwards after the move, looking at no
more than `steps` containers. -/
def classFrom? : Nat → Container → Option DeclId
  | 0, _ => none
  | _ + 1, .package _ => none
  | steps + 1, .decl owner =>
    if (pass.project.decl owner).kind.isClassLike then some owner
    else classFrom? steps (pass.containerAfter target owner)

def classAfter? (id : DeclId) : Option DeclId :=
  pass.classFrom? target chainLimit (pass.containerAfter target id)

end Pass

end Relocation
