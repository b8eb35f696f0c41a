import Relocation.Proofs.Project.Inside
set_option autoImplicit false

/-!
The way from a declaration out to its file, in whole.

A way out names all declarations on it. There is at most one for a declaration, and every walk
outwards that is cut off is described by it: the walk gives what is at the end of the way if the way
is short enough, and nothing otherwise.
-/

namespace Relocation.Project

/-- A declaration lies directly in the first of `owners`, each of these in the one after it, and the
last in `file`. -/
inductive Ascends (p : Project) : DeclId → List DeclId → FileId → Prop
  | file {id : DeclId} {file : FileId} (parent : (p.decl id).parent = .file file) :
      Ascends p id [] file
  | owner {id owner : DeclId} {owners : List DeclId} {file : FileId}
      (parent : (p.decl id).parent = .decl owner) (further : Ascends p owner owners file) :
      Ascends p id (owner :: owners) file

/-- `outer` is reached from `inner` in so many steps, each to what is directly around. -/
inductive StepsOut (p : Project) : Nat → Element → Element → Prop
  | here (element : Element) : StepsOut p 0 element element
  | out {steps : Nat} {inner next outer : Element} (around : p.around? inner = some next)
      (further : StepsOut p steps next outer) : StepsOut p (steps + 1) inner outer

variable {p : Project} {id : DeclId} {owners : List DeclId} {file : FileId}

theorem Ascends.unique {others : List DeclId} {other : FileId} (way : p.Ascends id owners file)
    (second : p.Ascends id others other) : owners = others ∧ file = other := by
  induction way generalizing others with
  | file parent =>
    cases second with
    | file same =>
      rw [parent] at same
      exact ⟨rfl, Parent.file.inj same⟩
    | owner inside _ =>
      rw [parent] at inside
      cases inside
  | owner parent _ inductionHypothesis =>
    cases second with
    | file outside =>
      rw [parent] at outside
      cases outside
    | owner same further =>
      rw [parent] at same
      cases same
      obtain ⟨rfl, rfl⟩ := inductionHypothesis further
      exact ⟨rfl, rfl⟩

theorem fileWithin_eq_some_iff {steps : Nat} :
    p.fileWithin steps id = some file ↔
      ∃ owners, p.Ascends id owners file ∧ owners.length < steps := by
  induction steps generalizing id with
  | zero => simp [fileWithin]
  | succ steps inductionHypothesis =>
    unfold fileWithin
    cases parent : (p.decl id).parent with
    | file home =>
      constructor
      · intro found
        cases found
        exact ⟨[], .file parent, Nat.succ_pos steps⟩
      · rintro ⟨owners, way, -⟩
        exact congrArg some ((Ascends.file parent).unique way).2
    | decl owner =>
      rw [inductionHypothesis]
      constructor
      · rintro ⟨owners, way, short⟩
        exact ⟨owner :: owners, .owner parent way, Nat.succ_lt_succ short⟩
      · rintro ⟨owners, way, short⟩
        cases way with
        | file outside =>
          rw [parent] at outside
          cases outside
        | owner same further =>
          rw [parent] at same
          cases same
          exact ⟨_, further, Nat.lt_of_succ_lt_succ short⟩

theorem Ascends.containersFrom (way : p.Ascends id owners file) {count : Nat}
    (short : owners.length < count) :
    p.containersFrom count (p.container id) =
      owners.map Container.decl ++ [.package (p.fragmentOfFile file)] := by
  induction way generalizing count with
  | @file id home parent =>
    obtain ⟨rest, rfl⟩ := Nat.exists_eq_add_one_of_ne_zero (Nat.ne_of_gt short)
    rw [container_eq, parent]
    rfl
  | @owner id owner owners home parent further inductionHypothesis =>
    obtain ⟨rest, rfl⟩ := Nat.exists_eq_add_one_of_ne_zero (Nat.ne_of_gt (Nat.zero_lt_of_lt short))
    rw [container_eq, parent, containerOf, containersFrom_decl,
      inductionHypothesis (Nat.lt_of_succ_lt_succ short)]
    rfl

theorem exists_ascends_of_getLast? {count : Nat} {fragment : PackageFragment}
    (ends : (p.containersFrom count (p.container id)).getLast? = some (.package fragment)) :
    ∃ owners file, p.Ascends id owners file ∧ owners.length < count ∧
      fragment = p.fragmentOfFile file := by
  induction count generalizing id with
  | zero => cases ends
  | succ count inductionHypothesis =>
    rw [container_eq] at ends
    cases parent : (p.decl id).parent with
    | file home =>
      rw [parent] at ends
      cases ends
      exact ⟨[], home, .file parent, Nat.succ_pos count, rfl⟩
    | decl owner =>
      rw [parent, containerOf, containersFrom_decl] at ends
      have further : (p.containersFrom count (p.container owner)).getLast? =
          some (.package fragment) := by
        cases chain : p.containersFrom count (p.container owner) with
        | nil =>
          rw [chain] at ends
          cases ends
        | cons next rest =>
          rw [chain, List.getLast?_cons_cons] at ends
          exact ends
      obtain ⟨owners, file, way, short, same⟩ := inductionHypothesis further
      exact ⟨owner :: owners, file, .owner parent way, Nat.succ_lt_succ short, same⟩

/-- A chain ends in the package of a file exactly if it comes as far as the file. -/
theorem getLast?_containersFrom_iff {count : Nat} :
    (p.containersFrom count (p.container id)).getLast? = some (.package (p.fragmentOfFile file)) ↔
      ∃ owners, p.Ascends id owners file ∧ owners.length < count := by
  constructor
  · intro ends
    obtain ⟨owners, home, way, short, same⟩ := exists_ascends_of_getLast? ends
    have sameFile : file = home := Option.some.inj (congrArg PackageFragment.file same)
    exact ⟨owners, sameFile ▸ way, short⟩
  · rintro ⟨owners, way, short⟩
    rw [way.containersFrom short, List.getLast?_concat]

theorem liesWithin_iff {steps : Nat} {outer inner : Element} :
    p.liesWithin outer steps inner = true ↔ ∃ taken ≤ steps, p.StepsOut taken inner outer := by
  induction steps generalizing inner with
  | zero =>
    simp only [liesWithin, beq_iff_eq]
    constructor
    · rintro rfl
      exact ⟨0, Nat.le_refl 0, .here inner⟩
    · rintro ⟨taken, none, way⟩
      obtain rfl := Nat.le_zero.mp none
      cases way
      rfl
  | succ steps inductionHypothesis =>
    simp only [liesWithin, Bool.or_eq_true, beq_iff_eq]
    constructor
    · rintro (rfl | further)
      · exact ⟨0, Nat.zero_le _, .here inner⟩
      · cases around : p.around? inner with
        | none => simp [around] at further
        | some next =>
          rw [around] at further
          obtain ⟨taken, few, way⟩ := inductionHypothesis.mp further
          exact ⟨taken + 1, Nat.succ_le_succ few, .out around way⟩
    · rintro ⟨taken, few, way⟩
      cases way with
      | here => exact Or.inl rfl
      | out around further =>
        right
        rw [around]
        exact inductionHypothesis.mpr ⟨_, Nat.le_of_succ_le_succ few, further⟩

theorem stepsOut_file_iff {steps : Nat} :
    p.StepsOut steps (.decl id) (.file file) ↔
      ∃ owners, p.Ascends id owners file ∧ steps = owners.length + 1 := by
  constructor
  · intro way
    induction steps generalizing id with
    | zero => cases way
    | succ steps inductionHypothesis =>
      cases way with
      | out around further =>
        cases parent : (p.decl id).parent with
        | file home =>
          simp only [around?, parent, Option.some.injEq] at around
          subst around
          cases further with
          | here => exact ⟨[], .file parent, rfl⟩
          | out beyond _ => cases beyond
        | decl owner =>
          simp only [around?, parent, Option.some.injEq] at around
          subst around
          obtain ⟨owners, above, rfl⟩ := inductionHypothesis further
          exact ⟨owner :: owners, .owner parent above, rfl⟩
  · rintro ⟨owners, way, rfl⟩
    induction way with
    | file parent => exact .out (by rw [around?, parent]) (.here _)
    | owner parent _ inductionHypothesis => exact .out (by rw [around?, parent]) inductionHypothesis

theorem liesWithin_file_iff {steps : Nat} :
    p.liesWithin (.file file) steps (.decl id) = true ↔
      ∃ owners, p.Ascends id owners file ∧ owners.length < steps := by
  rw [liesWithin_iff]
  constructor
  · rintro ⟨taken, few, way⟩
    obtain ⟨owners, above, rfl⟩ := stepsOut_file_iff.mp way
    exact ⟨owners, above, few⟩
  · rintro ⟨owners, way, short⟩
    exact ⟨owners.length + 1, short, stepsOut_file_iff.mpr ⟨owners, way, rfl⟩⟩

end Relocation.Project
