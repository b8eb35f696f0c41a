import Relocation.Project.Place
import Relocation.Walk
set_option autoImplicit false

/-!
What the code of a module can see: the sources of the module and of all modules it depends on,
directly or not, and the libraries and SDKs attached anywhere among them. Test sources are visible
to test code of the same module only.
-/

namespace Relocation

structure ModuleScope where
  modules : List ModuleId
  libraries : List LibraryId
  sdks : List SdkId

def ModuleScope.contains (scope : ModuleScope) : SourceRoot → Bool
  | .module id _ => scope.modules.contains id
  | .library id => scope.libraries.contains id
  | .sdk id => scope.sdks.contains id

namespace Project

variable (p : Project)

/-- A module and all modules that it depends on, directly or not. -/
def dependencyClosure (id : ModuleId) : List ModuleId :=
  Walk.reachable (fun module => (p.module module).dependencies) (p.modules.size + 1) [id]

def moduleScope (id : ModuleId) : ModuleScope :=
  let modules := p.dependencyClosure id
  { modules
    libraries := modules.flatMap fun module => (p.module module).libraries
    sdks := modules.flatMap fun module => (p.module module).sdks }

/-- The scope of a module, without JVM development kits for a module of another platform. -/
def platformScope (id : ModuleId) : ModuleScope :=
  let scope := p.moduleScope id
  if (p.module id).platform == .jvm then scope
  else { scope with sdks := scope.sdks.filter fun sdk => (p.sdk sdk).kind != .jdk }

/-- Whether code in a file sees the production sources of a module, or with `test` its test
sources. -/
def seesModule (file : FileId) (target : ModuleId) (test : Bool) : Bool :=
  match p.moduleOfFile? file with
  | none => false
  | some module =>
    if module = target then !test || p.isTestFile file
    else !test && (p.dependencyClosure module).contains target

def implementsModule (module common : ModuleId) : Bool :=
  (p.module module).implemented.contains common

/-- Whether a package has a directory or a file among the sources of a module. -/
def hasPackage (name : QualifiedName) (module : ModuleId) : Bool :=
  (p.directories.any fun dir => dir.root.module? == some module && dir.package == name) ||
    p.fileIds.any fun file => p.moduleOfFile? file == some module && p.packageOfFile file == name

/-- The top-level declarations of a package that a module sees; without a module, all of them. -/
def packageMembers (name : QualifiedName) (module : Option ModuleId) : List DeclId :=
  let scope := module.map p.moduleScope
  let files := p.fileIds.filter fun file =>
    p.packageOfFile file == name && scope.all fun scope => scope.contains (p.rootOfFile file)
  files.flatMap p.topLevel

end Project

end Relocation
