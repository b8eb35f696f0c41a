import Relocation.Proofs.Project.Inside
import Relocation.Proofs.Project.OneCall
import Relocation.Proofs.Steps
set_option autoImplicit false

/-!
Projects that are built call by call, from nothing.

A call needs the entries that it changes or starts from to be there, and fails otherwise. Whatever
the calls and their order, a declaration is listed only by the file or the declaration in which it
lies. So all that is found by going down the lists lies where the search began.
-/

namespace Relocation

/-- One call of the builder. A new declaration starts without members, and every type is taken from
the table by its shape. -/
inductive BuilderCall where
  | sdk (name : String) (kind : SdkKind)
  | library (name : String) (platform : Platform)
  | module (name : String) (platform : Platform)
  | dependency (id dependency : ModuleId)
  | moduleLibrary (id : ModuleId) (library : LibraryId)
  | moduleSdk (id : ModuleId) (sdk : SdkId)
  | implemented (id common : ModuleId)
  | directory (path : String) (root : SourceRoot) (package : QualifiedName)
  | file (directory : DirId) (name : String) (package : Option QualifiedName)
  | decl (data : Declaration)
  | supertype (id : DeclId) (type : TypeId)
  | overridden (id other : DeclId)
  | param (id : DeclId) (name : String) (type : TypeId)
  | bound (id : DeclId) (type : TypeId)
  | declaredType (id : DeclId) (type : TypeId)
  | internedType (shape : TypeShape)
  | reference (file : FileId) (owner target : Option DeclId) (flags : RefFlags)
  | referenceFrom (owner target : DeclId) (flags : RefFlags)
  | unresolved (owner : DeclId) (text : String)

namespace BuilderCall

variable (p : Project)

/-- Whether the entries that a call changes or starts from are there. -/
def isReady : BuilderCall → Bool
  | sdk _ _ | library _ _ | module _ _ | directory _ _ _ | file _ _ (some _) | internedType _ => true
  | dependency id _ | moduleLibrary id _ | moduleSdk id _ | implemented id _ =>
    p.moduleIds.contains id
  | file dir _ none => p.dirIds.contains dir
  | decl data =>
    match data.parent with
    | .file home => p.fileIds.contains home
    | .decl owner => p.declIds.contains owner
  | supertype id _ | overridden id _ | param id _ _ | bound id _ | declaredType id _
  | unresolved id _ => p.declIds.contains id
  | reference _ _ target _ => target.all p.declIds.contains
  | referenceFrom owner target _ => p.declIds.contains owner && p.declIds.contains target

def perform : BuilderCall → Project
  | sdk name kind => p.addSdk name kind
  | library name platform => p.addLibrary name platform
  | module name platform => p.addModule name platform
  | dependency id other => p.addDependency id other
  | moduleLibrary id attached => p.attachLibrary id attached
  | moduleSdk id attached => p.attachSdk id attached
  | implemented id common => p.addImplemented id common
  | directory path root package => p.addDirectory path root package
  | file dir name package => p.addFile dir name package
  | decl data => p.addDecl { data with members := #[] }
  | supertype id type => p.addSupertype id type
  | overridden id other => p.addOverride id other
  | param id name type => p.addParam id name type
  | bound id type => p.addBound id type
  | declaredType id type => p.setType id type
  | internedType shape => (p.internType shape).2
  | reference home owner target flags => p.addReference home owner target flags
  | referenceFrom owner target flags => p.addReferenceFrom owner target flags
  | unresolved owner text => p.addUnresolved owner text

def next? (call : BuilderCall) : Option Project :=
  if isReady p call then some (perform p call) else none

end BuilderCall

namespace Project

def run? (p : Project) (calls : List BuilderCall) : Option Project :=
  calls.foldlM BuilderCall.next? p

/-- Some series of calls makes the project of nothing. -/
def Built (p : Project) : Prop := ∃ calls, run? {} calls = some p

/-- What a file or a declaration lists is there, and lies directly in it. -/
structure ListsChildren (p : Project) : Prop where
  members : ∀ owner, ∀ id ∈ p.members owner, id ∈ p.declIds ∧ (p.decl id).parent = .decl owner
  topLevel : ∀ file, ∀ id ∈ p.topLevel file, id ∈ p.declIds ∧ (p.decl id).parent = .file file

end Project

theorem BuilderCall.oneCall {p : Project} {call : BuilderCall} (ready : call.isReady p = true) :
    p.OneCall (call.perform p) := by
  cases call with
  | file directory name package => exact .file directory name package
  | decl data =>
    refine .decl rfl ?_
    simp only [isReady] at ready
    cases parent : data.parent <;> simpa [Project.Offers, parent] using ready
  | supertype | overridden | param | bound | declaredType =>
    exact .edit _ (fun _ => rfl) (fun _ => rfl) fun _ => rfl
  | reference home owner target flags =>
    refine .reference fun known same => ?_
    cases same
    simpa [isReady] using ready
  | referenceFrom owner target flags =>
    refine .reference fun known same => ?_
    cases same
    simp only [isReady, Bool.and_eq_true, List.contains_iff_mem] at ready
    exact ready.2
  | unresolved owner text =>
    rw [perform, Project.addUnresolved_eq]
    refine .reference fun known same => ?_
    cases same
  | module =>
    refine .elsewhere rfl rfl rfl ?_ (Nat.le_refl _)
    simp [perform, Project.addModule]
  | dependency | moduleLibrary | moduleSdk | implemented =>
    exact .elsewhere rfl rfl rfl (Nat.le_of_eq (Array.size_modify ..).symm) (Nat.le_refl _)
  | directory =>
    refine .elsewhere rfl rfl rfl (Nat.le_refl _) ?_
    simp [perform, Project.addDirectory]
  | sdk | library | internedType => exact .elsewhere rfl rfl rfl (Nat.le_refl _) (Nat.le_refl _)

namespace Project

section OneCall

variable {p q : Project}

theorem ListsChildren.of_samePlaces (lists : p.ListsChildren) (same : p.SamePlaces q) :
    q.ListsChildren where
  members := by simpa only [same.declIds, same.parent, same.members] using lists.members
  topLevel := by simpa only [same.declIds, same.parent, same.topLevel] using lists.topLevel

/-- The new declaration lies where it is listed, and no other changes its place. -/
theorem ListsChildren.addDecl (lists : p.ListsChildren) {data : Declaration}
    (bare : data.members = #[]) (offered : p.Offers data.parent) :
    (p.addDecl data).ListsChildren := by
  have placed {parent : Parent} {children : List DeclId}
      (early : ∀ id ∈ children, id ∈ p.declIds ∧ (p.decl id).parent = parent) :
      ∀ id ∈ children ++ (if data.parent = parent then [p.nextDecl] else []),
        id ∈ (p.addDecl data).declIds ∧ ((p.addDecl data).decl id).parent = parent := by
    intro id listed
    rw [mem_declIds_addDecl]
    rcases List.mem_append.mp listed with old | new
    · rw [parent_addDecl_of_mem data (early id old).1]
      exact ⟨Or.inl (early id old).1, (early id old).2⟩
    · obtain ⟨here, same⟩ := List.mem_ite_nil_right.mp new
      obtain rfl := List.mem_singleton.mp same
      exact ⟨Or.inr rfl, (parent_addDecl_nextDecl data).trans here⟩
  constructor
  · intro owner
    rw [members_addDecl offered]
    split
    · simp [bare]
    · exact placed (lists.members owner)
  · intro file
    rw [topLevel_addDecl offered]
    exact placed (lists.topLevel file)

theorem ListsChildren.oneCall (lists : p.ListsChildren) (made : p.OneCall q) :
    q.ListsChildren := by
  rcases made.places with same | ⟨data, bare, offered, rfl⟩
  · exact lists.of_samePlaces same
  · exact lists.addDecl bare offered

end OneCall

theorem run?_induction {motive : Project → Prop} {before after : Project}
    {calls : List BuilderCall} (start : motive before)
    (step : ∀ p (call : BuilderCall), motive p → call.isReady p = true → motive (call.perform p))
    (made : before.run? calls = some after) : motive after := by
  apply foldlM_some_induction start ?_ made
  intro p call q holds called
  obtain ⟨ready, called⟩ := Option.ite_none_right_eq_some.mp called
  cases called
  exact step p call holds ready

theorem ListsChildren.run {before after : Project} (lists : before.ListsChildren)
    {calls : List BuilderCall} (made : before.run? calls = some after) : after.ListsChildren := by
  apply run?_induction lists ?_ made
  intro p call lists ready
  exact lists.oneCall (call.oneCall ready)

theorem listsChildren_empty : ({} : Project).ListsChildren where
  members := by
    intro owner id listed
    cases listed
  topLevel := by
    intro file id listed
    cases listed

theorem Built.listsChildren {p : Project} (built : p.Built) : p.ListsChildren := by
  obtain ⟨calls, made⟩ := built
  exact listsChildren_empty.run made

namespace ListsChildren

variable {p : Project} (lists : p.ListsChildren)
include lists

theorem liesIn_of_mem_members {owner id : DeclId} (listed : id ∈ p.members owner) :
    p.LiesIn (.decl id) (.decl owner) :=
  Relation.ReflTransGen.single (by simp [around?, (lists.members owner id listed).2])

theorem liesIn_of_mem_topLevel {file : FileId} {id : DeclId} (listed : id ∈ p.topLevel file) :
    p.LiesIn (.decl id) (.file file) :=
  Relation.ReflTransGen.single (by simp [around?, (lists.topLevel file id listed).2])

theorem liesIn_of_mem_nestedWithin {depth : Nat} {root id : DeclId}
    (found : id ∈ p.nestedWithin depth root) : p.LiesIn (.decl id) (.decl root) := by
  induction depth generalizing root with
  | zero => cases found
  | succ depth inductionHypothesis =>
    rcases List.mem_append.mp found with here | below
    · exact lists.liesIn_of_mem_members here
    · obtain ⟨member, listed, found⟩ := List.mem_flatMap.mp below
      exact (inductionHypothesis found).trans
        (lists.liesIn_of_mem_members (List.mem_reverse.mp listed))

theorem liesIn_of_mem_namedBy {elements : List Element} {id : DeclId}
    (named : id ∈ p.namedBy elements) : ∃ element ∈ elements, p.LiesIn (.decl id) element := by
  obtain ⟨element, listed, found⟩ := List.mem_flatMap.mp named
  refine ⟨element, listed, ?_⟩
  cases element with
  | decl root =>
    obtain rfl := List.mem_singleton.mp found
    exact Relation.ReflTransGen.refl
  | file file => exact lists.liesIn_of_mem_topLevel found
  | reference reference => cases found

/-- All declarations that are collected for a move lie in what moves. -/
theorem liesIn_of_mem_declarationsIn {elements : List Element} {id : DeclId}
    (collected : id ∈ p.declarationsIn elements) :
    ∃ element ∈ elements, p.LiesIn (.decl id) element := by
  rcases List.mem_append.mp collected with named | nested
  · exact lists.liesIn_of_mem_namedBy named
  · obtain ⟨root, named, found⟩ := List.mem_flatMap.mp nested
    obtain ⟨element, listed, inside⟩ := lists.liesIn_of_mem_namedBy (List.mem_reverse.mp named)
    exact ⟨element, listed, (lists.liesIn_of_mem_nestedWithin found).trans inside⟩

end ListsChildren

end Project

end Relocation
