import Mathlib.Data.List.Infix
import Relocation.Project.Build
set_option autoImplicit false

/-!
The table of types as it grows. Entries are only added at its end, and a shape that is there is found
at its first place. So a type that has once been taken from the table has its identifier ever after,
and taking it again leaves the table as it is.
-/

namespace Relocation.TypeTable

def Grows (t u : TypeTable) : Prop := t.shapes.toList <+: u.shapes.toList

/-- The first entry with a shape is the one with an identifier. -/
def Holds (t : TypeTable) (shape : TypeShape) (id : TypeId) : Prop :=
  t.shapes.toList.idxOf? shape = some id.index

variable {t u v : TypeTable} {shape : TypeShape} {id : TypeId}

theorem Grows.refl (t : TypeTable) : t.Grows t := List.prefix_refl _

theorem Grows.trans (first : t.Grows u) (second : u.Grows v) : t.Grows v :=
  List.IsPrefix.trans first second

theorem Holds.grow (holds : t.Holds shape id) (grows : t.Grows u) : u.Holds shape id := by
  obtain ⟨more, all⟩ := grows
  unfold Holds List.idxOf? at holds ⊢
  rw [← all, List.findIdx?_append, holds, Option.some_or]

theorem Holds.getElem? (holds : t.Holds shape id) : t.shapes[id.index]? = some shape := by
  obtain ⟨inside, found, -⟩ := List.idxOf?_eq_some_iff.mp holds
  rw [← Array.getElem?_toList, List.getElem?_eq_getElem inside, found]

theorem Holds.get (holds : t.Holds shape id) : t.get id = shape := by
  rw [TypeTable.get, Array.getD_eq_getD_getElem?, holds.getElem?, Option.getD_some]

theorem Holds.lt_size (holds : t.Holds shape id) : id.index < t.shapes.size :=
  (Array.getElem?_eq_some_iff.mp holds.getElem?).1

theorem idxOf?_shapes (t : TypeTable) (shape : TypeShape) :
    t.shapes.idxOf? shape = t.shapes.toList.idxOf? shape := by
  rw [← List.idxOf?_toArray, Array.toArray_toList]

theorem Holds.intern (holds : t.Holds shape id) : t.intern shape = (id, t) := by
  unfold Holds at holds
  simp [TypeTable.intern, idxOf?_shapes, holds]

theorem grows_intern (t : TypeTable) (shape : TypeShape) : t.Grows (t.intern shape).2 := by
  unfold TypeTable.intern
  split
  · exact Grows.refl t
  · simp [Grows]

theorem holds_intern (t : TypeTable) (shape : TypeShape) :
    (t.intern shape).2.Holds shape (t.intern shape).1 := by
  unfold TypeTable.intern Holds
  rw [idxOf?_shapes]
  split
  next index found => exact found
  next missing =>
    unfold List.idxOf? at missing ⊢
    simp [Array.toList_push, List.findIdx?_append, missing, List.findIdx?_cons]

theorem Grows.size_le (grows : t.Grows u) : t.shapes.size ≤ u.shapes.size := grows.length_le

/-- The top types stand at the front, and the arguments of an entry before it. -/
structure Ordered (t : TypeTable) : Prop where
  top : empty.Grows t
  args : ∀ (index : Nat) (shape : TypeShape), t.shapes[index]? = some shape →
    ∀ variance id, TypeArg.type variance id ∈ shape.arguments → id.index < index

theorem ordered_empty : empty.Ordered where
  top := Grows.refl empty
  args := by
    intro index shape found variance id listed
    match index with
    | 0 | 1 =>
      cases found
      cases listed
    | _ + 2 => cases found

namespace Ordered

theorem holds_any (ordered : t.Ordered) : t.Holds (.any false) any :=
  Holds.grow (t := empty) rfl ordered.top

theorem holds_nullableAny (ordered : t.Ordered) : t.Holds (.any true) nullableAny :=
  Holds.grow (t := empty) rfl ordered.top

theorem intern (ordered : t.Ordered) (shape : TypeShape)
    (inside : ∀ variance id, TypeArg.type variance id ∈ shape.arguments →
      id.index < t.shapes.size) :
    (t.intern shape).2.Ordered where
  top := ordered.top.trans (grows_intern t shape)
  args := by
    intro index other found variance id listed
    unfold TypeTable.intern at found
    split at found
    · exact ordered.args index other found variance id listed
    · simp only [Array.getElem?_push] at found
      split at found
      next last =>
        cases found
        rw [last]
        exact inside variance id listed
      · exact ordered.args index other found variance id listed

end Ordered

def unfoldArg (t : TypeTable) (depth : Nat) : TypeArg → TypeTreeArg
  | .star => .star
  | .type variance id => .type variance (t.treeWithin depth id)

def unfoldShape (t : TypeTable) (depth : Nat) : TypeShape → TypeTree
  | .any nullable => .any nullable
  | .param decl nullable => .param decl nullable
  | .applied classifier args nullable =>
    .applied classifier (args.map (t.unfoldArg depth)) nullable

theorem Holds.treeWithin (holds : t.Holds shape id) (depth : Nat) :
    t.treeWithin (depth + 1) id = t.unfoldShape depth shape := by
  rw [TypeTable.treeWithin, holds.get]
  cases shape <;> rfl

end Relocation.TypeTable
