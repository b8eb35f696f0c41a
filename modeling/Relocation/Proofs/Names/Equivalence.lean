import Mathlib.Data.List.Zip
import Relocation.Check.NameClash
import Relocation.Proofs.Project.Built
set_option autoImplicit false

/-!
Loose equivalence of types and declarations.

Types are compared by climbing from both at once, always to the only supertype, until they turn out
to be the same type or a step cannot be taken on both sides. What is found there decides: two forms
of the top type match, and so do generic types of one name.

The comparison is cut off after a number of steps. The induction is on the steps that are left. Two
types that are the same are recognised one step later than any others that match.
-/

namespace Relocation.Project

variable (p : Project)

def soleSupertype? (type : TypeId) : Option TypeId :=
  match p.typeSupertypes type with
  | [sole] => some sole
  | _ => none

/-- Both types are the top type or its nullable form. -/
structure BothTop (a b : TypeId) : Prop where
  left : (p.types.get a).isAny = true
  right : (p.types.get b).isAny = true

/-- Generic types of one short name, of which one at least has not exactly one supertype. -/
structure Namesakes (a b : TypeId) : Prop where
  stops : ¬ ((p.soleSupertype? a).isSome = true ∧ (p.soleSupertype? b).isSome = true)
  left : (p.types.get a).arguments ≠ []
  right : (p.types.get b).arguments ≠ []
  name : p.typeName? a = p.typeName? b

variable {p} {a b : TypeId}

theorem soleSupertype?_eq_some_iff {type sole : TypeId} :
    p.soleSupertype? type = some sole ↔ p.typeSupertypes type = [sole] := by
  unfold soleSupertype?
  split
  next only found => simp [found]
  next several =>
    constructor
    · intro none
      cases none
    · intro found
      exact absurd found (several sole)

theorem BothTop.symm (top : p.BothTop a b) : p.BothTop b a := ⟨top.right, top.left⟩

theorem Namesakes.symm (same : p.Namesakes a b) : p.Namesakes b a where
  stops := fun both => same.stops both.symm
  left := same.right
  right := same.left
  name := same.name.symm

theorem soleSupertype?_of_isAny (top : (p.types.get a).isAny = true) :
    p.soleSupertype? a = none := by
  unfold soleSupertype? typeSupertypes
  cases shape : p.types.get a with
  | any nullable => rfl
  | applied | param =>
    rw [shape] at top
    cases top

/-- With one step more, types match where they are or one step further up. -/
theorem typesMatch_succ {steps : Nat} :
    p.typesMatch (steps + 1) a b = true ↔
      a = b ∨ p.BothTop a b ∨ p.Namesakes a b ∨
        ∃ up other, p.soleSupertype? a = some up ∧ p.soleSupertype? b = some other ∧
          p.typesMatch steps up other = true := by
  have top : p.BothTop a b ↔
      (p.types.get a).isAny = true ∧ (p.types.get b).isAny = true :=
    ⟨fun both => ⟨both.left, both.right⟩, fun both => ⟨both.1, both.2⟩⟩
  simp only [typesMatch, Bool.or_eq_true, beq_iff_eq, Bool.and_eq_true, top]
  refine or_congr_right (or_congr_right ?_)
  split
  next up other left right =>
    have soleLeft := soleSupertype?_eq_some_iff.mpr left
    have soleRight := soleSupertype?_eq_some_iff.mpr right
    have climbs : ¬ p.Namesakes a b := fun same => same.stops (by simp [soleLeft, soleRight])
    simp [soleLeft, soleRight, climbs]
  next several =>
    have stops : ¬ ∃ up other, p.soleSupertype? a = some up ∧ p.soleSupertype? b = some other ∧
        p.typesMatch steps up other = true := by
      rintro ⟨up, other, left, right, -⟩
      exact several up other (soleSupertype?_eq_some_iff.mp left)
        (soleSupertype?_eq_some_iff.mp right)
    rw [or_iff_left stops]
    simp only [Bool.and_eq_true, Bool.not_eq_true', List.isEmpty_eq_false_iff, beq_iff_eq]
    constructor
    · rintro ⟨⟨left, right⟩, name⟩
      refine ⟨?_, left, right, name⟩
      rintro ⟨soleLeft, soleRight⟩
      obtain ⟨up, left⟩ := Option.isSome_iff_exists.mp soleLeft
      obtain ⟨other, right⟩ := Option.isSome_iff_exists.mp soleRight
      exact several up other (soleSupertype?_eq_some_iff.mp left)
        (soleSupertype?_eq_some_iff.mp right)
    · intro same
      exact ⟨⟨same.left, same.right⟩, same.name⟩

theorem typesMatch_symm {steps : Nat} (found : p.typesMatch steps a b = true) :
    p.typesMatch steps b a = true := by
  induction steps generalizing a b with
  | zero =>
    simp only [typesMatch, beq_iff_eq] at found ⊢
    exact found.symm
  | succ steps inductionHypothesis =>
    apply typesMatch_succ.mpr
    rcases typesMatch_succ.mp found with same | top | namesakes | ⟨up, other, left, right, further⟩
    · exact Or.inl same.symm
    · exact Or.inr (Or.inl top.symm)
    · exact Or.inr (Or.inr (Or.inl namesakes.symm))
    · exact Or.inr (Or.inr (Or.inr ⟨other, up, right, left, inductionHypothesis further⟩))

theorem typesMatch_comm (steps : Nat) (a b : TypeId) :
    p.typesMatch steps a b = p.typesMatch steps b a := by
  rw [Bool.eq_iff_iff]
  exact ⟨typesMatch_symm, typesMatch_symm⟩

/-- Neither the order of two types nor that of two declarations matters to their equivalence,
whatever their kinds and however many parameters each has. -/
theorem equivalence_symmetric (p : Project) :
    (∀ a b depth, p.typesEquivalent a b depth = p.typesEquivalent b a depth) ∧
    ∀ a b, p.declsEquivalent a b = p.declsEquivalent b a := by
  have types (a b : TypeId) (depth : Nat) :
      p.typesEquivalent a b depth = p.typesEquivalent b a depth := typesMatch_comm _ a b
  have params (left right : List ValueParam) :
      ((left.zip right).all fun pair => p.typesEquivalent pair.1.type pair.2.type 0) =
        (right.zip left).all fun pair => p.typesEquivalent pair.1.type pair.2.type 0 := by
    rw [← List.zip_swap, List.all_map]
    congr 1
    funext pair
    exact types pair.2.type pair.1.type 0
  refine ⟨types, fun a b => ?_⟩
  unfold declsEquivalent
  dsimp only
  rw [BEq.comm]
  cases (p.decl a).kind.isFunctionLike <;> cases (p.decl b).kind.isFunctionLike
  · rfl
  · rfl
  · rfl
  · exact congrArg _ (params (p.decl a).params (p.decl b).params)

variable (p) in
/-- The type that is reached from another in a number of steps, each to the only supertype. -/
def climb? (type : TypeId) : Nat → Option TypeId
  | 0 => some type
  | steps + 1 => (climb? type steps).bind p.soleSupertype?

theorem climb?_add (type : TypeId) (steps more : Nat) :
    p.climb? type (steps + more) = (p.climb? type steps).bind fun next => p.climb? next more := by
  induction more with
  | zero => simp [climb?]
  | succ more inductionHypothesis =>
    rw [← Nat.add_assoc, climb?, inductionHypothesis, Option.bind_assoc]
    rfl

theorem climb?_succ_eq_some_iff {type reached : TypeId} {steps : Nat} :
    p.climb? type (steps + 1) = some reached ↔
      ∃ up, p.soleSupertype? type = some up ∧ p.climb? up steps = some reached := by
  rw [Nat.add_comm, climb?_add, Option.bind_eq_some_iff]
  rfl

theorem isSome_climb?_of_le {type : TypeId} {steps more : Nat} (fewer : steps ≤ more)
    (reached : (p.climb? type more).isSome = true) : (p.climb? type steps).isSome = true := by
  obtain ⟨rest, rfl⟩ := Nat.exists_eq_add_of_le fewer
  rw [climb?_add] at reached
  exact Option.isSome_of_isSome_bind reached

theorem climb?_of_stop {type : TypeId} (stops : p.soleSupertype? type = none) (steps : Nat) :
    p.climb? type (steps + 1) = none := by
  rw [Nat.add_comm, climb?_add]
  exact congrArg (fun next => next.bind fun up => p.climb? up steps) stops

/-- Only from the types of the table is there anywhere to climb. -/
theorem climb?_eq_none_of_inside {steps : Nat}
    (inside : ∀ index < p.types.shapes.size, p.climb? ⟨index⟩ (steps + 1) = none)
    (type : TypeId) : p.climb? type (steps + 1) = none := by
  by_cases known : type.index < p.types.shapes.size
  · exact inside type.index known
  · apply climb?_of_stop
    apply soleSupertype?_of_isAny
    simp [TypeTable.get, Array.getD_eq_getD_getElem?,
      Array.getElem?_eq_none (Nat.le_of_not_lt known)]
    rfl

/-- Types match if climbing from both leads to the same type, or to types that match where they
are; of these there has to be a step left. -/
theorem typesMatch_iff {steps : Nat} :
    p.typesMatch steps a b = true ↔
      ∃ taken up other, p.climb? a taken = some up ∧ p.climb? b taken = some other ∧
        (up = other ∧ taken ≤ steps ∨
          taken < steps ∧ (p.BothTop up other ∨ p.Namesakes up other)) := by
  induction steps generalizing a b with
  | zero =>
    simp only [typesMatch, beq_iff_eq, Nat.le_zero, Nat.not_lt_zero, false_and, or_false]
    constructor
    · rintro rfl
      exact ⟨0, a, a, rfl, rfl, rfl, rfl⟩
    · rintro ⟨_, up, other, left, right, same, rfl⟩
      cases left
      cases right
      exact same
  | succ steps inductionHypothesis =>
    rw [typesMatch_succ]
    constructor
    · rintro (same | top | namesakes | ⟨up, other, left, right, further⟩)
      · exact ⟨0, a, b, rfl, rfl, Or.inl ⟨same, Nat.zero_le _⟩⟩
      · exact ⟨0, a, b, rfl, rfl, Or.inr ⟨Nat.succ_pos _, Or.inl top⟩⟩
      · exact ⟨0, a, b, rfl, rfl, Or.inr ⟨Nat.succ_pos _, Or.inr namesakes⟩⟩
      · obtain ⟨taken, high, otherHigh, climbed, otherClimbed, found⟩ :=
          inductionHypothesis.mp further
        refine ⟨taken + 1, high, otherHigh, climb?_succ_eq_some_iff.mpr ⟨up, left, climbed⟩,
          climb?_succ_eq_some_iff.mpr ⟨other, right, otherClimbed⟩, ?_⟩
        simpa only [Nat.add_le_add_iff_right, Nat.add_lt_add_iff_right] using found
    · rintro ⟨taken, high, otherHigh, climbed, otherClimbed, found⟩
      cases taken with
      | zero =>
        cases climbed
        cases otherClimbed
        rcases found with ⟨same, -⟩ | ⟨-, top | namesakes⟩
        · exact Or.inl same
        · exact Or.inr (Or.inl top)
        · exact Or.inr (Or.inr (Or.inl namesakes))
      | succ taken =>
        obtain ⟨up, left, climbed⟩ := climb?_succ_eq_some_iff.mp climbed
        obtain ⟨other, right, otherClimbed⟩ := climb?_succ_eq_some_iff.mp otherClimbed
        refine Or.inr (Or.inr (Or.inr ⟨up, other, left, right, inductionHypothesis.mpr ?_⟩))
        refine ⟨taken, high, otherHigh, climbed, otherClimbed, ?_⟩
        simpa only [Nat.add_le_add_iff_right, Nat.add_lt_add_iff_right] using found

variable (p) in
def MatchesAtAll (a b : TypeId) : Prop :=
  ∃ taken up other, p.climb? a taken = some up ∧ p.climb? b taken = some other ∧
    (up = other ∨ p.BothTop up other ∨ p.Namesakes up other)

theorem matchesAtAll_of_typesMatch {steps : Nat} (found : p.typesMatch steps a b = true) :
    p.MatchesAtAll a b := by
  obtain ⟨taken, up, other, left, right, found⟩ := typesMatch_iff.mp found
  refine ⟨taken, up, other, left, right, ?_⟩
  rcases found with ⟨same, -⟩ | ⟨-, found⟩
  · exact Or.inl same
  · exact Or.inr found

/-- A climb that ends before the limit is followed to its end. -/
theorem typesMatch_iff_matchesAtAll {steps : Nat} (ends : p.climb? a steps = none) :
    p.typesMatch steps a b = true ↔ p.MatchesAtAll a b := by
  constructor
  · exact matchesAtAll_of_typesMatch
  · rintro ⟨taken, up, other, left, right, found⟩
    apply typesMatch_iff.mpr
    have early : taken < steps := by
      by_contra late
      have reached := isSome_climb?_of_le (Nat.le_of_not_lt late) (Option.isSome_of_mem left)
      rw [ends] at reached
      cases reached
    refine ⟨taken, up, other, left, right, ?_⟩
    rcases found with same | found
    · exact Or.inl ⟨same, Nat.le_of_lt early⟩
    · exact Or.inr ⟨early, found⟩

variable (p) in
def ComesRound (type : TypeId) : Prop :=
  ∃ before period again, 0 < period ∧ p.climb? type before = some again ∧
    p.climb? again period = some again

theorem ComesRound.isSome_climb? {type : TypeId} (round : p.ComesRound type) (steps : Nat) :
    (p.climb? type steps).isSome = true := by
  obtain ⟨before, period, again, positive, reached, returns⟩ := round
  have often (rounds : Nat) : p.climb? again (rounds * period) = some again := by
    induction rounds with
    | zero => rw [Nat.zero_mul, climb?]
    | succ rounds inductionHypothesis =>
      rw [Nat.succ_mul, climb?_add, inductionHypothesis, Option.bind_some, returns]
  have far : steps ≤ before + steps * period :=
    Nat.le_add_left_of_le (Nat.le_mul_of_pos_right steps positive)
  apply isSome_climb?_of_le far
  rw [climb?_add, reached, Option.bind_some, often]
  rfl

/-- Climbs that never end can only come to the same type. -/
theorem MatchesAtAll.exists_meeting (found : p.MatchesAtAll a b)
    (endless : ∀ steps, (p.climb? a steps).isSome = true)
    (otherEndless : ∀ steps, (p.climb? b steps).isSome = true) :
    ∃ taken, p.climb? a taken = p.climb? b taken := by
  obtain ⟨taken, up, other, left, right, found⟩ := found
  have next := endless (taken + 1)
  have otherNext := otherEndless (taken + 1)
  rw [climb?, left, Option.bind_some] at next
  rw [climb?, right, Option.bind_some] at otherNext
  rcases found with rfl | top | namesakes
  · exact ⟨taken, left.trans right.symm⟩
  · rw [soleSupertype?_of_isAny top.left] at next
    cases next
  · exact absurd ⟨next, otherNext⟩ namesakes.stops

/-- Two types are equivalent if climbing from both in step leads to the same type in at most 65
steps, or in at most 64 to two top types or to generic types of one name that cannot both be climbed
from. If no climb has more than 64 steps a higher limit, or none, makes no difference, and climbs
that run in circles and never meet show no equivalence. -/
theorem types_compared_in_step (p : Project) :
    (∀ a b, p.typesEquivalent a b 0 = true ↔
      ∃ steps up other, p.climb? a steps = some up ∧ p.climb? b steps = some other ∧
        (up = other ∧ steps ≤ 65 ∨ steps ≤ 64 ∧ p.BothTop up other ∨
          steps ≤ 64 ∧ p.Namesakes up other)) ∧
    ((∀ type, p.climb? type 65 = none) → ∀ a b,
      (p.typesEquivalent a b 0 = true ↔ p.MatchesAtAll a b) ∧
        ∀ limit, 64 ≤ limit → p.typesMatch (limit + 1) a b = p.typesEquivalent a b 0) ∧
    ∀ a b, p.ComesRound a → p.ComesRound b → (∀ steps, p.climb? a steps ≠ p.climb? b steps) →
      p.typesEquivalent a b 0 = false := by
  have limited (a b : TypeId) : p.typesEquivalent a b 0 = p.typesMatch 65 a b := rfl
  refine ⟨fun a b => ?_, fun short a b => ⟨?_, fun limit least => ?_⟩, ?_⟩
  · simp only [limited, typesMatch_iff, Nat.lt_succ_iff, and_or_left]
  · exact typesMatch_iff_matchesAtAll (short a)
  · have ends : p.climb? a (limit + 1) = none := by
      by_contra reached
      have early := isSome_climb?_of_le (Nat.succ_le_succ least)
        (Option.isSome_iff_ne_none.mpr reached)
      rw [short a] at early
      cases early
    rw [Bool.eq_iff_iff, limited, typesMatch_iff_matchesAtAll ends,
      typesMatch_iff_matchesAtAll (short a)]
  · intro a b round otherRound apart
    rw [limited, Bool.eq_false_iff]
    intro found
    obtain ⟨taken, meet⟩ := (matchesAtAll_of_typesMatch found).exists_meeting
      round.isSome_climb? otherRound.isSome_climb?
    exact apart taken meet

/-- `Left` and `Right` extend `Base`. -/
def cousinsCalls : List BuilderCall := [
  .module "core" .jvm, .directory "a" (.module ⟨0⟩ false) ⟨"a"⟩, .file ⟨0⟩ "A.kt" none,
  .decl { name := "Base", kind := .plainClass, parent := .file ⟨0⟩ },
  .decl { name := "Left", kind := .plainClass, parent := .file ⟨0⟩ },
  .decl { name := "Right", kind := .plainClass, parent := .file ⟨0⟩ },
  .internedType (.applied ⟨0⟩ [] false), .supertype ⟨1⟩ ⟨2⟩, .supertype ⟨2⟩ ⟨2⟩,
  .internedType (.applied ⟨1⟩ [] false), .internedType (.applied ⟨2⟩ [] false)]

def cousins : Project := (run? {} cousinsCalls).getD {}

/-- Of two type parameters each is the bound of the other. -/
def circleCalls : List BuilderCall := [
  .module "core" .jvm, .directory "a" (.module ⟨0⟩ false) ⟨"a"⟩, .file ⟨0⟩ "A.kt" none,
  .decl { name := "Holder", kind := .plainClass, parent := .file ⟨0⟩ },
  .decl { name := "X", kind := .typeParameter, parent := .decl ⟨0⟩ },
  .decl { name := "Y", kind := .typeParameter, parent := .decl ⟨0⟩ },
  .internedType (.param ⟨1⟩ false), .internedType (.param ⟨2⟩ false),
  .bound ⟨1⟩ ⟨3⟩, .bound ⟨2⟩ ⟨2⟩]

def circle : Project := (run? {} circleCalls).getD {}

/-- Climbing from both parameters swaps them with every step. -/
theorem climb?_circle (steps : Nat) :
    (circle.climb? ⟨2⟩ steps = some ⟨2⟩ ∧ circle.climb? ⟨3⟩ steps = some ⟨3⟩) ∨
      (circle.climb? ⟨2⟩ steps = some ⟨3⟩ ∧ circle.climb? ⟨3⟩ steps = some ⟨2⟩) := by
  have up : circle.soleSupertype? ⟨2⟩ = some ⟨3⟩ := by decide +kernel
  have back : circle.soleSupertype? ⟨3⟩ = some ⟨2⟩ := by decide +kernel
  induction steps with
  | zero => exact Or.inl ⟨rfl, rfl⟩
  | succ steps inductionHypothesis =>
    rcases inductionHypothesis with ⟨left, right⟩ | ⟨left, right⟩
    · exact Or.inr (by simp [climb?, left, right, up, back])
    · exact Or.inl (by simp [climb?, left, right, up, back])

/-- `Left` and `Right` are equivalent by their superclass, with any limit that is high enough, and
the parameters never are. -/
theorem compared_in_step_cousins :
    ((∀ type, cousins.climb? type 65 = none) ∧ circle.ComesRound ⟨2⟩ ∧ circle.ComesRound ⟨3⟩ ∧
      ∀ steps, circle.climb? ⟨2⟩ steps ≠ circle.climb? ⟨3⟩ steps) ∧
    cousins.MatchesAtAll ⟨3⟩ ⟨4⟩ ∧
    (∀ limit, 64 ≤ limit → cousins.typesMatch (limit + 1) ⟨3⟩ ⟨4⟩ = true) ∧
    circle.typesEquivalent ⟨2⟩ ⟨3⟩ 0 = false := by
  have short : ∀ type, cousins.climb? type 65 = none :=
    climb?_eq_none_of_inside (by decide +kernel)
  have roundX : circle.ComesRound ⟨2⟩ :=
    ⟨0, 2, ⟨2⟩, by decide, rfl, by decide +kernel⟩
  have roundY : circle.ComesRound ⟨3⟩ :=
    ⟨0, 2, ⟨3⟩, by decide, rfl, by decide +kernel⟩
  have apart (steps : Nat) : circle.climb? ⟨2⟩ steps ≠ circle.climb? ⟨3⟩ steps := by
    rcases climb?_circle steps with ⟨left, right⟩ | ⟨left, right⟩
    · rw [left, right]
      decide
    · rw [left, right]
      decide
  have meet : cousins.typesEquivalent ⟨3⟩ ⟨4⟩ 0 = true := by decide +kernel
  obtain ⟨-, unlimited, -⟩ := types_compared_in_step cousins
  obtain ⟨exact, higher⟩ := unlimited short ⟨3⟩ ⟨4⟩
  obtain ⟨-, -, circles⟩ := types_compared_in_step circle
  refine ⟨⟨short, roundX, roundY, apart⟩, exact.mp meet, ?_, circles ⟨2⟩ ⟨3⟩ roundX roundY apart⟩
  intro limit least
  rw [higher limit least, meet]

end Relocation.Project
