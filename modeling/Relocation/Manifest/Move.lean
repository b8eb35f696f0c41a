import Relocation.Manifest.Load
import Relocation.Project.Target
set_option autoImplicit false

/-!
What a request to move stands for in a loaded project.

Requests find declarations by qualified name alone, and the first declaration, file or directory
of a name is the one that is meant.
-/

namespace Relocation.Manifest

def packageOr (p : Project) (directory : DirId) (package : Option String) : QualifiedName :=
  match package with
  | some package => ⟨package⟩
  | none => (p.directory directory).package

def TargetEntry.resolve (p : Project) : TargetEntry → Except Problem Target
  | existingDecl name => do return .decl (← findDecl p name)
  | existingFile path => do return .file (← findFile p path)
  | directory path package => do
    let dir ← findDirectory p path
    return .directory dir (packageOr p dir package)
  | deferredFile path package fileName => do
    let dir ← findDirectory p path
    return .newFile dir (packageOr p dir package) fileName

/-- The elements to move, declarations before files, and where they go. -/
def MoveEntry.resolve (p : Project) (e : MoveEntry) : Except Problem (List Element × Target) := do
  let decls ← e.declarations.mapM (findDecl p)
  let files ← e.files.mapM (findFile p)
  let target ← e.target.resolve p
  return (decls.map .decl ++ files.map .file, target)

end Relocation.Manifest
