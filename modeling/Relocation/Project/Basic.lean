import Relocation.Project.Declaration
import Relocation.Project.Reference
import Relocation.Project.Root
import Relocation.Project.TypeTable
set_option autoImplicit false

/-!
The semantic model of a project: one arena for each kind of entry, addressed by identifiers.

An identifier outside its arena stands for an empty entry, which the builder operations never
hand out.
-/

namespace Relocation

structure Project where
  modules : Array Module := #[]
  libraries : Array Library := #[]
  sdks : Array Sdk := #[]
  directories : Array Directory := #[]
  files : Array SourceFile := #[]
  decls : Array Declaration := #[]
  references : Array Reference := #[]
  types : TypeTable := .empty
  deriving Repr, Inhabited

namespace Project

variable (p : Project)

def decl (id : DeclId) : Declaration := p.decls.getD id.index default

def reference (id : RefId) : Reference := p.references.getD id.index default

def file (id : FileId) : SourceFile := p.files.getD id.index default

def directory (id : DirId) : Directory := p.directories.getD id.index default

def module (id : ModuleId) : Module := p.modules.getD id.index default

def library (id : LibraryId) : Library := p.libraries.getD id.index default

def sdk (id : SdkId) : Sdk := p.sdks.getD id.index default

def declIds : List DeclId := (List.range p.decls.size).map DeclId.mk

def refIds : List RefId := (List.range p.references.size).map RefId.mk

def fileIds : List FileId := (List.range p.files.size).map FileId.mk

def dirIds : List DirId := (List.range p.directories.size).map DirId.mk

def moduleIds : List ModuleId := (List.range p.modules.size).map ModuleId.mk

def members (id : DeclId) : List DeclId := (p.decl id).members.toList

def topLevel (id : FileId) : List DeclId := (p.file id).declarations.toList

def moduleByName? (name : String) : Option ModuleId :=
  p.moduleIds.find? fun id => (p.module id).name == name

end Project

end Relocation
