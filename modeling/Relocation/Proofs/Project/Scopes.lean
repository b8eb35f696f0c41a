import Relocation.Project.Scope
import Relocation.Proofs.Project.Children
import Relocation.Proofs.Sealed.Hierarchy
set_option autoImplicit false

/-!
The scopes in which a name is looked up: the members of a class with those it inherits, and the
top-level declarations of a package among the sources that a module sees. Supertypes and
dependencies may go round in circles; the searches over them visit everything once, so a scope lists
each declaration once.
-/

namespace Relocation.Project

variable {p : Project}

inductive InMemberScope (p : Project) (owner id : DeclId) : Prop
  | own (parent : (p.decl id).parent = .decl owner) (member : (p.decl id).kind ≠ .constructor)
  /-- From a class that `owner` reaches along supertypes. -/
  | inherited {ancestor : DeclId} (inherits : Walk.Reaches p.supertypeDecls owner ancestor)
      (parent : (p.decl id).parent = .decl ancestor) (member : (p.decl id).kind ≠ .constructor)
      (shared : (p.decl id).visibility ≠ .priv)

theorem mem_superHierarchy_iff {id ancestor : DeclId} :
    ancestor ∈ p.superHierarchy id ↔ Walk.Reaches p.supertypeDecls id ancestor := by
  have enough : Walk.Suffices p.supertypeDecls p.declDepth [] :=
    suffices_declDepth (fun _ _ declared => mem_declIds_of_supertype declared) []
  simp [superHierarchy, Walk.mem_reachable_iff _ enough]

theorem nodup_superHierarchy (id : DeclId) : (p.superHierarchy id).Nodup :=
  Walk.nodup_reachable _ _ [id]

theorem mem_memberScope_iff (all : p.ListsAll) {owner id : DeclId} :
    id ∈ p.memberScope owner ↔ p.InMemberScope owner id := by
  simp only [memberScope, List.mem_flatMap, List.mem_filter, mem_superHierarchy_iff,
    all.mem_members_iff, Bool.and_eq_true, Bool.or_eq_true, bne_iff_ne, beq_iff_eq]
  constructor
  · rintro ⟨ancestor, inherits, parent, member, rfl | shared⟩
    · exact .own parent member
    · exact .inherited inherits parent member shared
  · rintro (⟨parent, member⟩ | ⟨inherits, parent, member, shared⟩)
    · exact ⟨owner, Relation.ReflTransGen.refl, parent, member, Or.inl rfl⟩
    · exact ⟨_, inherits, parent, member, Or.inr shared⟩

theorem nodup_memberScope (all : p.ListsAll) (ordered : p.Ordered) (owner : DeclId) :
    (p.memberScope owner).Nodup := by
  refine List.nodup_flatMap.mpr ⟨fun ancestor _ => (ordered.nodup_members ancestor).filter _, ?_⟩
  refine (nodup_superHierarchy owner).imp fun differ id inOne inOther => ?_
  have one := all.mem_members_iff.mp (List.mem_filter.mp inOne).1
  have other := all.mem_members_iff.mp (List.mem_filter.mp inOther).1
  exact differ (Parent.decl.inj (one.symm.trans other))

/-- A module sees itself and all modules that it depends on, directly or not. -/
def Sees (p : Project) : ModuleId → ModuleId → Prop :=
  Walk.Reaches fun module => (p.module module).dependencies

def HasRoot (p : Project) (home : ModuleId) : SourceRoot → Prop
  | .module id _ => id = home
  | .library id => id ∈ (p.module home).libraries
  | .sdk id => id ∈ (p.module home).sdks

def SeesRoot (p : Project) (module : ModuleId) (root : SourceRoot) : Prop :=
  ∃ home, p.Sees module home ∧ p.HasRoot home root

theorem mem_dependencyClosure_iff {module home : ModuleId} :
    home ∈ p.dependencyClosure module ↔ p.Sees module home := by
  have enough : Walk.Suffices (fun module => (p.module module).dependencies)
      (p.modules.size + 1) [] := by
    refine ⟨p.moduleIds, fun module depends => ?_, ?_⟩
    · rw [mem_moduleIds]
      by_contra beyond
      apply depends
      simp [Project.module, Array.getD_eq_getD_getElem?,
        Array.getElem?_eq_none (Nat.le_of_not_lt beyond)]
      rfl
    · have filtered := List.length_filter_le (fun module => module ∉ ([] : List ModuleId))
        p.moduleIds
      have counted : p.moduleIds.length = p.modules.size := by simp [moduleIds]
      omega
  simp [dependencyClosure, Sees, Walk.mem_reachable_iff _ enough]

theorem contains_moduleScope_iff {module : ModuleId} {root : SourceRoot} :
    (p.moduleScope module).contains root = true ↔ p.SeesRoot module root := by
  cases root <;>
    simp [moduleScope, ModuleScope.contains, mem_dependencyClosure_iff, SeesRoot, HasRoot]

/-- A top-level declaration of a package, in a file that a module sees. Without a module all files of
the package count. -/
structure InPackageScope (p : Project) (name : QualifiedName) (module? : Option ModuleId)
    (id : DeclId) : Prop where
  declared : id ∈ p.declIds
  topLevel : ∃ file, (p.decl id).parent = .file file ∧ p.packageOfFile file = name ∧
    ∀ module, module? = some module → p.SeesRoot module (p.rootOfFile file)

theorem mem_packageMembers_iff (all : p.ListsAll) (listed : p.Listed) {name : QualifiedName}
    {module? : Option ModuleId} {id : DeclId} :
    id ∈ p.packageMembers name module? ↔ p.InPackageScope name module? id := by
  have inScope (file : FileId) :
      ((module?.map p.moduleScope).all fun scope => scope.contains (p.rootOfFile file)) = true ↔
        ∀ module, module? = some module → p.SeesRoot module (p.rootOfFile file) := by
    cases module? with
    | none => simp
    | some module => simp [contains_moduleScope_iff]
  simp only [packageMembers, List.mem_flatMap, List.mem_filter, Bool.and_eq_true, beq_iff_eq,
    inScope, all.mem_topLevel_iff]
  constructor
  · rintro ⟨file, ⟨-, named, sees⟩, declared, parent⟩
    exact ⟨declared, file, parent, named, sees⟩
  · rintro ⟨declared, file, parent, named, sees⟩
    exact ⟨file, ⟨listed.mem_fileIds declared parent, named, sees⟩, declared, parent⟩

theorem nodup_packageMembers (all : p.ListsAll) (ordered : p.Ordered) (name : QualifiedName)
    (module? : Option ModuleId) : (p.packageMembers name module?).Nodup := by
  have files : p.fileIds.Nodup := List.nodup_range.map fun one other same => FileId.mk.inj same
  refine List.nodup_flatMap.mpr ⟨fun file _ => ordered.nodup_topLevel file, ?_⟩
  refine (files.filter _).imp fun differ id inOne inOther => ?_
  have one := (all.mem_topLevel_iff.mp inOne).2
  have other := (all.mem_topLevel_iff.mp inOther).2
  exact differ (Parent.file.inj (one.symm.trans other))

end Relocation.Project
