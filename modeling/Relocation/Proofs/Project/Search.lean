import Relocation.Project.Search
import Relocation.Proofs.Repetition
set_option autoImplicit false

/-!
The reverse indexes of a project. What points at a declaration is recorded in the order of the
arenas, and once each, so the index answers what a scan of the whole arena would.
-/

namespace Relocation

namespace Project

variable (p : Project)

theorem mem_declIds {id : DeclId} : id ∈ p.declIds ↔ id.index < p.decls.size := by
  rcases id with ⟨index⟩
  simp [declIds]

theorem mem_moduleIds {id : ModuleId} : id ∈ p.moduleIds ↔ id.index < p.modules.size := by
  rcases id with ⟨index⟩
  simp [moduleIds]

theorem mem_dirIds {id : DirId} : id ∈ p.dirIds ↔ id.index < p.directories.size := by
  rcases id with ⟨index⟩
  simp [dirIds]

theorem mem_fileIds {id : FileId} : id ∈ p.fileIds ↔ id.index < p.files.size := by
  rcases id with ⟨index⟩
  simp [fileIds]

theorem length_declIds : p.declIds.length = p.decls.size := by
  simp [declIds]

theorem decl_of_not_mem {id : DeclId} (outside : id ∉ p.declIds) : p.decl id = default := by
  rw [mem_declIds] at outside
  simp [decl, Array.getD_eq_getD_getElem?, Array.getElem?_eq_none (Nat.le_of_not_lt outside)]

variable {p} in
theorem mem_refIds_of_target {reference : RefId} {target : DeclId}
    (resolved : (p.reference reference).target = some target) : reference ∈ p.refIds := by
  by_contra outside
  have beyond : p.references.size ≤ reference.index := by
    rcases reference with ⟨index⟩
    simpa [refIds] using outside
  simp [Project.reference, Array.getD_eq_getD_getElem?, Array.getElem?_eq_none beyond] at resolved
  cases resolved

end Project

namespace SearchIndex

variable {α : Type}

def entries (lists : Array (Array α)) (id : DeclId) : List α := (lists.getD id.index #[]).toList

@[simp]
theorem size_record (lists : Array (Array α)) (id : DeclId) (entry : α) :
    (record lists id entry).size = lists.size := by
  simp [record]

theorem entries_record {lists : Array (Array α)} {id : DeclId} (inside : id.index < lists.size)
    (target : DeclId) (entry : α) :
    entries (record lists target entry) id =
      entries lists id ++ if target = id then [entry] else [] := by
  rcases id with ⟨index⟩
  rcases target with ⟨targetIndex⟩
  simp only [entries, record, Array.getD_eq_getD_getElem?, Array.getElem?_modify, DeclId.mk.injEq]
  by_cases same : targetIndex = index
  · subst same
    simp only at inside
    simp [inside]
  · simp [same]

theorem entries_foldl_record {lists : Array (Array α)} {id : DeclId}
    (inside : id.index < lists.size) {targets : List DeclId} (distinct : targets.Nodup)
    (entry : α) :
    entries (targets.foldl (fun lists target => record lists target entry) lists) id =
      entries lists id ++ if id ∈ targets then [entry] else [] := by
  induction targets generalizing lists with
  | nil => simp
  | cons first rest inductionHypothesis =>
    obtain ⟨once, distinct⟩ := List.nodup_cons.mp distinct
    rw [List.foldl_cons, inductionHypothesis (by simpa using inside) distinct,
      entries_record inside]
    by_cases here : first = id
    · subst first
      simp [once]
    · simp [here, Ne.symm here]

/-- A step that records its entry where `points` says so, at most once, makes an index of the
entries that point at a declaration. -/
theorem entries_foldl {step : Array (Array α) → α → Array (Array α)} {points : α → Bool}
    {id : DeclId} {size : Nat}
    (sized : ∀ lists entry, lists.size = size → (step lists entry).size = size)
    (recorded : ∀ lists entry, lists.size = size →
      entries (step lists entry) id = entries lists id ++ if points entry then [entry] else [])
    (all : List α) :
    entries (all.foldl step (Array.replicate size #[])) id = all.filter points := by
  have general : ∀ lists : Array (Array α), lists.size = size →
      entries (all.foldl step lists) id = entries lists id ++ all.filter points := by
    induction all with
    | nil => simp
    | cons entry rest inductionHypothesis =>
      intro lists right
      rw [List.foldl_cons, inductionHypothesis _ (sized lists entry right),
        recorded lists entry right, List.filter_cons]
      split <;> simp
  rw [general _ Array.size_replicate]
  simp only [entries, Array.getD_eq_getD_getElem?, Array.getElem?_replicate]
  split <;> simp

end SearchIndex

namespace Project

variable (p : Project)

theorem referencesTo_eq {id : DeclId} (inside : id ∈ p.declIds) :
    p.services.referencesTo id =
      p.refIds.filter fun ref => (p.reference ref).target == some id := by
  rw [mem_declIds] at inside
  refine SearchIndex.entries_foldl ?_ ?_ p.refIds
  · intro lists ref right
    cases (p.reference ref).target <;> simp [right]
  · intro lists ref right
    cases (p.reference ref).target with
    | none => simp
    | some target =>
      have room : id.index < lists.size := by omega
      simp [SearchIndex.entries_record room]

theorem referencesTo_of_not_mem {id : DeclId} (outside : id ∉ p.declIds) :
    p.services.referencesTo id = [] := by
  have size : (SearchIndex.ofProject p).referencesTo.size = p.decls.size := by
    refine List.foldlRecOn p.refIds _
      (motive := fun lists : Array (Array RefId) => lists.size = p.decls.size)
      Array.size_replicate ?_
    intro lists right ref _
    cases (p.reference ref).target <;> simp [right]
  rw [mem_declIds, ← size] at outside
  simp [services, Array.getD_eq_getD_getElem?,
    Array.getElem?_eq_none (Nat.le_of_not_lt outside)]

theorem mem_referencesTo {id : DeclId} {ref : RefId} (found : ref ∈ p.services.referencesTo id) :
    ref ∈ p.refIds ∧ (p.reference ref).target = some id := by
  by_cases inside : id ∈ p.declIds
  · rw [p.referencesTo_eq inside, List.mem_filter, beq_iff_eq] at found
    exact found
  · rw [p.referencesTo_of_not_mem inside] at found
    cases found

theorem nodup_referencesTo (id : DeclId) : (p.services.referencesTo id).Nodup := by
  by_cases inside : id ∈ p.declIds
  · rw [p.referencesTo_eq inside]
    apply List.Nodup.filter
    apply List.nodup_range.map
    intro one other same
    exact RefId.mk.inj same
  · rw [p.referencesTo_of_not_mem inside]
    exact List.nodup_nil

theorem directInheritors_eq {id : DeclId} (inside : id ∈ p.declIds) :
    p.services.directInheritors id =
      p.declIds.filter fun child => (p.supertypeDecls child).contains id := by
  rw [mem_declIds] at inside
  refine SearchIndex.entries_foldl ?_ ?_ p.declIds
  · intro lists child right
    refine List.foldlRecOn (p.supertypeDecls child).eraseDups _
      (motive := fun grown : Array (Array DeclId) => grown.size = p.decls.size) right ?_
    intro grown right parent _
    simpa using right
  · intro lists child right
    have room : id.index < lists.size := by omega
    rw [SearchIndex.entries_foldl_record room (Repetition.nodup_eraseDups _)]
    simp

end Project

end Relocation
