import Relocation.Proofs.Project.Built
set_option autoImplicit false

/-!
Everything that is built can be found again.

A declaration is listed by the file that it lies in, the declaration around another one is there,
and a reference that resolves does so to a declaration that is there. So whatever lies in a file lies
in a declaration that the file lists, but for references outside of all declarations.
-/

namespace Relocation.Project

/-- What is there is listed at the top level of its file or lies in what is there, and references
resolve to what is there. -/
structure Listed (p : Project) : Prop where
  topLevel : ∀ id ∈ p.declIds, ∀ file, (p.decl id).parent = .file file → id ∈ p.topLevel file
  owner : ∀ id ∈ p.declIds, ∀ owner, (p.decl id).parent = .decl owner → owner ∈ p.declIds
  target : ∀ reference target, (p.reference reference).target = some target → target ∈ p.declIds

variable {p q : Project}

theorem OneCall.target (made : p.OneCall q) {reference : RefId} {target : DeclId}
    (resolved : (q.reference reference).target = some target) :
    (p.reference reference).target = some target ∨ target ∈ p.declIds := by
  cases made with
  | elsewhere _ _ references =>
    rw [Project.reference, references] at resolved
    exact Or.inl resolved
  | file | edit => exact Or.inl resolved
  | decl =>
    rw [Project.reference, references_addDecl] at resolved
    exact Or.inl resolved
  | reference known =>
    simp only [Project.reference, Array.getD_eq_getD_getElem?, Array.getElem?_push] at resolved ⊢
    split at resolved
    · exact Or.inr (known target resolved)
    · exact Or.inl resolved

theorem Listed.addDecl (listed : p.Listed) {data : Declaration} (offered : p.Offers data.parent) :
    (p.addDecl data).Listed := by
  constructor
  · intro id declared file parent
    rw [topLevel_addDecl offered]
    rcases (mem_declIds_addDecl data).mp declared with early | rfl
    · rw [parent_addDecl_of_mem data early] at parent
      exact List.mem_append_left _ (listed.topLevel id early file parent)
    · rw [parent_addDecl_nextDecl] at parent
      simp [parent]
  · intro id declared owner parent
    apply (mem_declIds_addDecl data).mpr
    rcases (mem_declIds_addDecl data).mp declared with early | rfl
    · rw [parent_addDecl_of_mem data early] at parent
      exact Or.inl (listed.owner id early owner parent)
    · rw [parent_addDecl_nextDecl] at parent
      rw [parent] at offered
      exact Or.inl offered
  · intro reference target resolved
    rw [Project.reference, references_addDecl] at resolved
    exact (mem_declIds_addDecl data).mpr (Or.inl (listed.target reference target resolved))

theorem Listed.oneCall (listed : p.Listed) (made : p.OneCall q) : q.Listed := by
  rcases made.places with same | ⟨data, -, offered, rfl⟩
  · constructor
    · simpa only [same.declIds, same.parent, same.topLevel] using listed.topLevel
    · simpa only [same.declIds, same.parent] using listed.owner
    · intro reference target resolved
      rw [same.declIds]
      exact (made.target resolved).elim (listed.target reference target) id
  · exact listed.addDecl offered

theorem Built.listed (built : p.Built) : p.Listed := by
  obtain ⟨calls, made⟩ := built
  refine run?_induction (motive := Listed) ⟨?_, ?_, ?_⟩ ?_ made
  · intro id declared
    cases declared
  · intro id declared
    cases declared
  · intro reference target resolved
    cases resolved
  · exact fun p call listed ready => listed.oneCall (call.oneCall ready)

/-- Declarations of the project, and references that lie in some or elsewhere than in the file. -/
def Present (p : Project) (file : FileId) : Element → Prop
  | .decl id => id ∈ p.declIds
  | .reference id => match (p.reference id).owner with
    | some owner => owner ∈ p.declIds
    | none => (p.reference id).file ≠ file
  | .file _ => False

/-- What is present in a file lies in a declaration that the file lists. -/
theorem Listed.exists_topLevel (listed : p.Listed) {element : Element} {file : FileId}
    (present : p.Present file element) (inside : p.LiesIn element (.file file)) :
    ∃ top ∈ p.topLevel file, p.LiesIn element (.decl top) := by
  have fromDecl {element : Element} (inside : p.LiesIn element (.file file)) : ∀ id,
      element = .decl id → id ∈ p.declIds →
        ∃ top ∈ p.topLevel file, p.LiesIn (.decl id) (.decl top) := by
    induction inside using Relation.ReflTransGen.head_induction_on with
    | refl => exact nofun
    | @head element next around further inductionHypothesis =>
      rintro id rfl declared
      cases parent : (p.decl id).parent with
      | file home =>
        have next_eq : next = .file home := by simpa [around?, parent] using around.symm
        subst next_eq
        obtain rfl : file = home := by simpa using LiesIn.of_file further
        exact ⟨id, listed.topLevel id declared file parent, Relation.ReflTransGen.refl⟩
      | decl owner =>
        have next_eq : next = .decl owner := by simpa [around?, parent] using around.symm
        subst next_eq
        obtain ⟨top, member, above⟩ :=
          inductionHypothesis owner rfl (listed.owner id declared owner parent)
        exact ⟨top, member, Relation.ReflTransGen.head around above⟩
  cases element with
  | decl id => exact fromDecl inside id rfl present
  | file other => cases present
  | reference id =>
    rcases inside.cases_around with same | ⟨next, around, further⟩
    · cases same
    · simp only [Present] at present
      cases owned : (p.reference id).owner with
      | none =>
        have next_eq : next = .file (p.reference id).file := by
          simpa [around?, owned] using around.symm
        subst next_eq
        rw [owned] at present
        exact absurd (Element.file.inj (LiesIn.of_file further)).symm present
      | some owner =>
        have next_eq : next = .decl owner := by simpa [around?, owned] using around.symm
        subst next_eq
        rw [owned] at present
        obtain ⟨top, member, above⟩ := fromDecl further owner rfl present
        exact ⟨top, member, Relation.ReflTransGen.head around above⟩

/-- A file moves what the declarations that it lists move. -/
theorem Listed.isInside_topLevel (listed : p.Listed) (lists : p.ListsChildren)
    {element : Element} {file : FileId} (present : p.Present file element)
    (ends : p.LiesIn element (.file file) → p.Ends element) :
    p.isInside ((p.topLevel file).map .decl) element = p.isInside [.file file] element := by
  rw [Bool.eq_iff_iff]
  simp only [isInside, List.any_map, List.any_cons, List.any_nil, Bool.or_false, List.any_eq_true]
  constructor
  · rintro ⟨top, member, around⟩
    have inside := (liesIn_of_liesWithin around).trans (lists.liesIn_of_mem_topLevel member)
    exact LiesIn.isAncestor inside (ends inside)
  · intro around
    have inside := liesIn_of_liesWithin around
    obtain ⟨top, member, above⟩ := listed.exists_topLevel present inside
    exact ⟨top, member, LiesIn.isAncestor above (ends inside)⟩

end Relocation.Project
