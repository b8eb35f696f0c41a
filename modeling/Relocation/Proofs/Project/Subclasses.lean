import Relocation.Proofs.Project.Scopes
import Relocation.Proofs.Stack
set_option autoImplicit false

/-!
The test whether a class inherits from another one.

It looks at one class after the other, upwards from the first, until it comes to the second or has
seen everything above. A class may stand among those still to look at several times and supertypes
may go round in circles, but what is above a class is looked at once. So the test always ends, and
says whether the second class can be reached along supertypes.
-/

namespace Relocation.Project

/-- A test under way, with the classes still to look at, the next one first, and those looked at, or
its answer. -/
inductive SubclassTest where
  | searching (pending visited : List DeclId)
  | answered (answer : Bool)

/-- Looks at the next class. Its supertypes come next, the last of them first. -/
def SubclassTest.round (p : Project) (sup : DeclId) : SubclassTest → SubclassTest
  | .searching [] _ => .answered false
  | .searching (current :: rest) visited =>
    if current = sup then .answered true
    else if current ∈ visited then .searching rest visited
    else .searching ((p.supertypeDecls current).reverse ++ rest) (current :: visited)
  | .answered answer => .answered answer

variable {p : Project}

theorem suffices_supertypes (seen : List DeclId) :
    Walk.Suffices p.supertypeDecls p.declDepth seen :=
  suffices_declDepth (fun _ _ declared => mem_declIds_of_supertype declared) seen

/-- A test that has not come to the class yet answers whether the walk upwards from the classes still
to look at comes to it. -/
theorem comesTo_answered {sup : DeclId} (pending : List DeclId) {visited : List DeclId}
    (unseen : sup ∉ visited) :
    ComesTo (SubclassTest.round p sup) (.searching pending visited)
      (.answered (decide (sup ∈ Walk.seenAfter p.supertypeDecls p.declDepth pending visited))) := by
  revert unseen
  apply Walk.stack_induction _ (suffices_supertypes visited)
    (motive := fun pending visited => sup ∉ visited →
      ComesTo (SubclassTest.round p sup) (.searching pending visited)
        (.answered (decide (sup ∈ Walk.seenAfter p.supertypeDecls p.declDepth pending visited))))
  case empty =>
    intro visited unseen
    apply ComesTo.head
    rw [Walk.seenAfter, List.foldl_nil, decide_eq_false unseen]
    exact ComesTo.refl _
  case known =>
    intro current rest visited known further unseen
    have other : current ≠ sup := fun same => unseen (same ▸ known)
    apply ComesTo.head
    rw [Walk.seenAfter_known _ known, SubclassTest.round, if_neg other, if_pos known]
    exact further unseen
  case new =>
    intro current rest visited new further unseen
    apply ComesTo.head
    rw [Walk.seenAfter_new _ (suffices_supertypes visited) new, SubclassTest.round]
    by_cases same : current = sup
    · subst same
      have found : current ∈ Walk.seenAfter p.supertypeDecls p.declDepth
          ((p.supertypeDecls current).reverse ++ rest) (current :: visited) :=
        Walk.subset_seenAfter _ _ (List.mem_cons_self ..)
      rw [if_pos rfl, decide_eq_true found]
      exact ComesTo.refl _
    · rw [if_neg same, if_neg new]
      exact further (List.not_mem_cons_of_ne_of_not_mem (Ne.symm same) unseen)

theorem isSubclassOf_iff {sub sup : DeclId} :
    p.isSubclassOf sub sup = true ↔ Walk.Reaches p.supertypeDecls sub sup := by
  rw [isSubclassOf, List.contains_iff_mem, mem_superHierarchy_iff]

/-- The subclass test is reachability along supertypes. -/
structure TestsSubclasses (p : Project) : Prop where
  ends : ∀ sub sup, ComesTo (SubclassTest.round p sup) (.searching [sub] [])
    (.answered (p.isSubclassOf sub sup))
  exact : ∀ sub sup, p.isSubclassOf sub sup = true ↔ Walk.Reaches p.supertypeDecls sub sup
  refl : ∀ id, p.isSubclassOf id id = true
  trans : ∀ sub middle sup, p.isSubclassOf sub middle = true → p.isSubclassOf middle sup = true →
    p.isSubclassOf sub sup = true

theorem subclass_test_exact (p : Project) : p.TestsSubclasses where
  ends := by
    intro sub sup
    have same : decide (sup ∈ Walk.seenAfter p.supertypeDecls p.declDepth [sub] []) =
        p.isSubclassOf sub sup := by
      rw [Bool.eq_iff_iff, decide_eq_true_iff, Walk.mem_seenAfter_iff _ (suffices_supertypes []),
        isSubclassOf_iff]
      simp only [List.mem_singleton, exists_eq_left]
    exact same ▸ comesTo_answered [sub] List.not_mem_nil
  exact := fun _ _ => isSubclassOf_iff
  refl := fun _ => isSubclassOf_iff.mpr Relation.ReflTransGen.refl
  trans := by
    intro sub middle sup lower upper
    exact isSubclassOf_iff.mpr ((isSubclassOf_iff.mp lower).trans (isSubclassOf_iff.mp upper))

/-- `X` and `Y` inherit from each other, `Z` from nothing. -/
example :
    let declared (name : String) : BuilderCall :=
      .decl { name, kind := .plainClass, parent := .file ⟨0⟩ }
    let p := (run? {} [.file ⟨0⟩ "A.kt" (some ⟨"a"⟩), declared "X", declared "Y", declared "Z",
      .internedType (.applied ⟨0⟩ [] false), .internedType (.applied ⟨1⟩ [] false),
      .supertype ⟨1⟩ ⟨2⟩, .supertype ⟨0⟩ ⟨3⟩]).getD {}
    p.isSubclassOf ⟨0⟩ ⟨1⟩ = true ∧ p.isSubclassOf ⟨1⟩ ⟨0⟩ = true ∧
      p.isSubclassOf ⟨0⟩ ⟨2⟩ = false := by
  decide +kernel

end Relocation.Project
