import Relocation.Proofs.Project.Names
import Relocation.Proofs.Project.Ordered
import Relocation.Proofs.Project.Search
set_option autoImplicit false

/-!
What a file or a declaration lists is exactly what lies directly in it, in the order in which it was
made.
-/

namespace Relocation.Project

def children (p : Project) (parent : Parent) : List DeclId :=
  p.declIds.filter fun id => (p.decl id).parent == parent

/-- Every list of children is complete and in order. -/
structure ListsAll (p : Project) : Prop where
  members : ∀ owner, p.members owner = p.children (.decl owner)
  topLevel : ∀ file, p.topLevel file = p.children (.file file)

variable {p q : Project}

theorem mem_declIds_of_owner {id owner : DeclId} (owned : (p.decl id).parent = .decl owner) :
    id ∈ p.declIds := by
  by_contra unknown
  rw [p.decl_of_not_mem unknown] at owned
  cases owned

theorem ListsAll.mem_members_iff (all : p.ListsAll) {id owner : DeclId} :
    id ∈ p.members owner ↔ (p.decl id).parent = .decl owner := by
  rw [all.members, children, List.mem_filter, beq_iff_eq]
  apply and_iff_right_of_imp
  exact mem_declIds_of_owner

theorem ListsAll.mem_topLevel_iff (all : p.ListsAll) {file : FileId} {id : DeclId} :
    id ∈ p.topLevel file ↔ id ∈ p.declIds ∧ (p.decl id).parent = .file file := by
  rw [all.topLevel, children, List.mem_filter, beq_iff_eq]

theorem declIds_addDecl (data : Declaration) :
    (p.addDecl data).declIds = p.declIds ++ [p.nextDecl] := by
  have size : (p.addDecl data).decls.size = p.decls.size + 1 := by
    simp only [addDecl_eq, Array.size_push, ← length_declIds, declIds_editChildren]
  simp [declIds, size, List.range_succ, nextDecl]

theorem children_addDecl (data : Declaration) (parent : Parent) :
    (p.addDecl data).children parent =
      p.children parent ++ if data.parent = parent then [p.nextDecl] else [] := by
  unfold children
  rw [declIds_addDecl, List.filter_append]
  congr 1
  · apply List.filter_congr
    intro id known
    rw [parent_addDecl_of_mem data known]
  · simp only [List.filter_singleton, decl_addDecl, if_pos]
    by_cases same : data.parent = parent
    · simp [same]
    · simp [same, beq_eq_false_iff_ne.mpr same]

theorem children_next_decl (built : p.Built) : p.children (.decl p.nextDecl) = [] := by
  rw [children, List.filter_eq_nil_iff]
  intro id known inside
  exact nextDecl_not_mem (built.listed.owner id known p.nextDecl (eq_of_beq inside))

theorem SamePlaces.children (same : p.SamePlaces q) (parent : Parent) :
    q.children parent = p.children parent := by
  simp only [Project.children, same.declIds, same.parent]

namespace ListsAll

theorem addDecl (all : p.ListsAll) (built : p.Built) {data : Declaration}
    (bare : data.members = #[]) (offered : p.Offers data.parent) : (p.addDecl data).ListsAll := by
  constructor
  · intro owner
    rw [members_addDecl offered, children_addDecl]
    split
    next new =>
      have elsewhere : data.parent ≠ .decl owner := by
        intro same
        rw [same, new] at offered
        exact nextDecl_not_mem offered
      rw [new] at elsewhere ⊢
      simp [bare, children_next_decl built, elsewhere]
    · rw [all.members]
  · intro file
    rw [topLevel_addDecl offered, children_addDecl, all.topLevel]

theorem oneCall (all : p.ListsAll) (built : p.Built) (made : p.OneCall q) : q.ListsAll := by
  rcases made.places with same | ⟨data, bare, offered, rfl⟩
  · constructor
    · simpa only [same.members, same.children] using all.members
    · simpa only [same.topLevel, same.children] using all.topLevel
  · exact all.addDecl built bare offered

end ListsAll

theorem Built.listsAll (built : p.Built) : p.ListsAll := by
  have start : ({} : Project).Built ∧ ({} : Project).ListsAll :=
    ⟨Extends.refl {}, fun _ => rfl, fun _ => rfl⟩
  obtain ⟨calls, made⟩ := built
  refine (run?_induction (motive := fun p => p.Built ∧ p.ListsAll) start ?_ made).2
  rintro p call ⟨built, all⟩ ready
  exact ⟨(Extends.call call ready).built built, all.oneCall built (call.oneCall ready)⟩

end Relocation.Project
