import Relocation.Project.Hierarchy
import Relocation.Project.Scope
set_option autoImplicit false

/-!
Questions that need the whole project: who refers to a declaration, who inherits from a class, and
what an import finds.

A check takes the answers from a `Services` record, so that another index can stand in for the one
built here from the arenas.
-/

namespace Relocation

structure Services where
  /-- All references to a declaration. -/
  referencesTo : DeclId → List RefId
  /-- The classes that list a class among their supertypes. -/
  directInheritors : DeclId → List DeclId
  /-- What an import of a name finds in a file of a module. -/
  resolveImport : QualifiedName → ModuleId → List DeclId

structure SearchIndex where
  referencesTo : Array (Array RefId)
  inheritors : Array (Array DeclId)

namespace SearchIndex

def record {α : Type} (lists : Array (Array α)) (id : DeclId) (entry : α) : Array (Array α) :=
  lists.modify id.index fun list => list.push entry

def ofProject (p : Project) : SearchIndex where
  referencesTo :=
    p.refIds.foldl
      (fun lists ref =>
        match (p.reference ref).target with
        | some target => record lists target ref
        | none => lists)
      (Array.replicate p.decls.size #[])
  inheritors :=
    p.declIds.foldl
      (fun lists id =>
        (p.supertypeDecls id).eraseDups.foldl (fun lists parent => record lists parent id) lists)
      (Array.replicate p.decls.size #[])

end SearchIndex

namespace Project

variable (p : Project)

/-- Declarations that a file of `module` can import by `name`: those in its scope whose importable
name it is. A declaration that is imported through another one is not found itself. -/
def resolveImport (name : QualifiedName) (module : ModuleId) : List DeclId :=
  let scope := p.platformScope module
  p.declIds.filter fun id =>
    (p.rootOf? id).any scope.contains && p.importable id == id && p.importableName? id == some name

/-- Services that answer from the project itself. -/
def services : Services :=
  let index := SearchIndex.ofProject p
  { referencesTo := fun id => (index.referencesTo.getD id.index #[]).toList
    directInheritors := fun id => (index.inheritors.getD id.index #[]).toList
    resolveImport := p.resolveImport }

end Project

end Relocation
