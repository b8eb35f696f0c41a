import Mathlib.Data.List.Nodup
import Relocation.Check.Describe
import Relocation.Proofs.Project.Types
set_option autoImplicit false

/-!
Types written out, without a limit on the depth.

The arguments of an entry stand before it, so writing an entry out comes to an end, and the length of
the table is depth enough for it. In a table without repetition the tree says which entry it came
from. The induction is on how the tree came about; two entries with one tree have the same head, and
by induction the same arguments, so they are one entry.
-/

namespace Relocation

/-- The same type, with null among its values. The arguments stay as they are. -/
def TypeTree.asNullable : TypeTree → TypeTree
  | .any _ => .any true
  | .applied classifier args _ => .applied classifier args true
  | .param decl _ => .param decl true

namespace TypeTable

mutual

/-- `tree` is an entry with its arguments written out, their arguments too, and so on until none are
left. -/
inductive Unfolds (t : TypeTable) : TypeId → TypeTree → Prop
  | any {id : TypeId} {nullable : Bool}
      (entry : t.shapes[id.index]? = some (.any nullable)) : Unfolds t id (.any nullable)
  | param {id : TypeId} {decl : DeclId} {nullable : Bool}
      (entry : t.shapes[id.index]? = some (.param decl nullable)) :
      Unfolds t id (.param decl nullable)
  | applied {id : TypeId} {classifier : DeclId} {args : List TypeArg} {trees : List TypeTreeArg}
      {nullable : Bool} (entry : t.shapes[id.index]? = some (.applied classifier args nullable))
      (below : UnfoldsAll t args trees) : Unfolds t id (.applied classifier trees nullable)

/-- The same for a list of arguments. -/
inductive UnfoldsAll (t : TypeTable) : List TypeArg → List TypeTreeArg → Prop
  | nil : UnfoldsAll t [] []
  | star {args : List TypeArg} {trees : List TypeTreeArg} (rest : UnfoldsAll t args trees) :
      UnfoldsAll t (.star :: args) (.star :: trees)
  | type {variance : Variance} {id : TypeId} {tree : TypeTree} {args : List TypeArg}
      {trees : List TypeTreeArg} (first : Unfolds t id tree) (rest : UnfoldsAll t args trees) :
      UnfoldsAll t (.type variance id :: args) (.type variance tree :: trees)

end

variable {t u : TypeTable}

theorem get_eq_of_getElem? {id : TypeId} {shape : TypeShape}
    (entry : t.shapes[id.index]? = some shape) : t.get id = shape := by
  rw [TypeTable.get, Array.getD_eq_getD_getElem?, entry, Option.getD_some]

theorem getElem?_of_lt {id : TypeId} (inside : id.index < t.shapes.size) :
    t.shapes[id.index]? = some (t.get id) := by
  obtain ⟨shape, entry⟩ : ∃ shape, t.shapes[id.index]? = some shape :=
    ⟨_, Array.getElem?_eq_getElem inside⟩
  rw [entry, get_eq_of_getElem? entry]

theorem Grows.getElem? (grows : t.Grows u) {index : Nat} {shape : TypeShape}
    (entry : t.shapes[index]? = some shape) : u.shapes[index]? = some shape := by
  rw [← Array.getElem?_toList] at entry ⊢
  obtain ⟨more, all⟩ := grows
  rw [← all, List.getElem?_append_left (List.getElem?_eq_some_iff.mp entry).1, entry]

theorem Unfolds.lt_size {id : TypeId} {tree : TypeTree} (unfolds : t.Unfolds id tree) :
    id.index < t.shapes.size := by
  cases unfolds with
  | any entry | param entry | applied entry below => exact (Array.getElem?_eq_some_iff.mp entry).1

mutual

theorem Unfolds.grow (grows : t.Grows u) :
    ∀ {id : TypeId} {tree : TypeTree}, t.Unfolds id tree → u.Unfolds id tree
  | _, _, .any entry => .any (grows.getElem? entry)
  | _, _, .param entry => .param (grows.getElem? entry)
  | _, _, .applied entry below => .applied (grows.getElem? entry) (below.grow grows)

theorem UnfoldsAll.grow (grows : t.Grows u) :
    ∀ {args : List TypeArg} {trees : List TypeTreeArg}, t.UnfoldsAll args trees →
      u.UnfoldsAll args trees
  | _, _, .nil => .nil
  | _, _, .star rest => .star (rest.grow grows)
  | _, _, .type first rest => .type (first.grow grows) (rest.grow grows)

end

theorem eq_of_same_shape (distinct : t.shapes.toList.Nodup) {one other : TypeId} {shape : TypeShape}
    (first : t.shapes[one.index]? = some shape) (second : t.shapes[other.index]? = some shape) :
    one = other := by
  rw [← Array.getElem?_toList] at first second
  have inside : one.index < t.shapes.toList.length := (List.getElem?_eq_some_iff.mp first).1
  have same : one.index = other.index :=
    (List.getElem?_inj inside distinct).mp (first.trans second.symm)
  cases one
  cases other
  exact congrArg TypeId.mk same

mutual

/-- Two entries that are written out in the same way are one. -/
theorem Unfolds.injective (distinct : t.shapes.toList.Nodup) :
    ∀ {one other : TypeId} {tree : TypeTree}, t.Unfolds one tree → t.Unfolds other tree →
      one = other
  | _, _, _, .any first, .any second => eq_of_same_shape distinct first second
  | _, _, _, .param first, .param second => eq_of_same_shape distinct first second
  | _, _, _, .applied first below, .applied second others => by
    have same := below.injective distinct others
    rw [same] at first
    exact eq_of_same_shape distinct first second

theorem UnfoldsAll.injective (distinct : t.shapes.toList.Nodup) :
    ∀ {args others : List TypeArg} {trees : List TypeTreeArg}, t.UnfoldsAll args trees →
      t.UnfoldsAll others trees → args = others
  | _, _, _, .nil, .nil => rfl
  | _, _, _, .star rest, .star others => by rw [rest.injective distinct others]
  | _, _, _, .type first rest, .type second others => by
    rw [first.injective distinct second, rest.injective distinct others]

end

mutual

/-- An entry needs no more depth than the number of entries up to it. -/
theorem Ordered.treeWithin_eq (ordered : t.Ordered) :
    ∀ {id : TypeId} {tree : TypeTree} (depth : Nat), t.Unfolds id tree → id.index < depth →
      t.treeWithin depth id = tree
  | _, _, depth + 1, .any entry, _ => by
    simp only [treeWithin, get_eq_of_getElem? entry]
  | _, _, depth + 1, .param entry, _ => by
    simp only [treeWithin, get_eq_of_getElem? entry]
  | id, _, depth + 1, @Unfolds.applied _ _ _ args _ _ entry below, deep => by
    have shallower (variance : Variance) (arg : TypeId) (listed : .type variance arg ∈ args) :
        arg.index < depth :=
      Nat.lt_of_lt_of_le (ordered.args id.index _ entry variance arg listed)
        (Nat.le_of_lt_succ deep)
    have written := ordered.map_unfoldArg_eq depth below shallower
    simp only [treeWithin, get_eq_of_getElem? entry]
    exact congrArg (TypeTree.applied _ · _) written

theorem Ordered.map_unfoldArg_eq (ordered : t.Ordered) :
    ∀ {args : List TypeArg} {trees : List TypeTreeArg} (depth : Nat), t.UnfoldsAll args trees →
      (∀ variance id, TypeArg.type variance id ∈ args → id.index < depth) →
      args.map (t.unfoldArg depth) = trees
  | _, _, _, .nil, _ => rfl
  | _, _, depth, .star rest, shallow => by
    have further := ordered.map_unfoldArg_eq depth rest fun variance id listed =>
      shallow variance id (List.mem_cons_of_mem _ listed)
    rw [List.map_cons, further]
    rfl
  | _, _, depth, .type first rest, shallow => by
    have here := ordered.treeWithin_eq depth first (shallow _ _ (List.mem_cons_self ..))
    have further := ordered.map_unfoldArg_eq depth rest fun variance id listed =>
      shallow variance id (List.mem_cons_of_mem _ listed)
    rw [List.map_cons, further, unfoldArg, here]

end

theorem unfoldsAll_map {depth : Nat} {args : List TypeArg}
    (each : ∀ variance id, TypeArg.type variance id ∈ args → t.Unfolds id (t.treeWithin depth id)) :
    t.UnfoldsAll args (args.map (t.unfoldArg depth)) := by
  induction args with
  | nil => exact .nil
  | cons arg rest inductionHypothesis =>
    have further := inductionHypothesis fun variance id listed =>
      each variance id (List.mem_cons_of_mem _ listed)
    cases arg with
    | star => exact .star further
    | type variance id => exact .type (each variance id (List.mem_cons_self ..)) further

namespace Ordered

variable (ordered : t.Ordered)
include ordered

theorem unfolds_treeWithin {depth : Nat} {id : TypeId} (deep : id.index < depth)
    (inside : id.index < t.shapes.size) : t.Unfolds id (t.treeWithin depth id) := by
  induction depth generalizing id with
  | zero => exact absurd deep (Nat.not_lt_zero _)
  | succ depth inductionHypothesis =>
    have entry := getElem?_of_lt inside
    unfold treeWithin
    cases shape : t.get id with
    | any nullable =>
      rw [shape] at entry
      exact .any entry
    | param decl nullable =>
      rw [shape] at entry
      exact .param entry
    | applied classifier args nullable =>
      rw [shape] at entry
      apply Unfolds.applied entry
      apply unfoldsAll_map
      intro variance arg listed
      have before := ordered.args id.index _ entry variance arg listed
      exact inductionHypothesis (Nat.lt_of_lt_of_le before (Nat.le_of_lt_succ deep))
        (Nat.lt_trans before inside)

/-- Every entry is written out in one way, and the length of the table is depth enough to find
it. -/
theorem unfolds_iff {id : TypeId} (inside : id.index < t.shapes.size) {tree : TypeTree} :
    t.Unfolds id tree ↔ tree = t.tree id := by
  constructor
  · intro unfolds
    exact (ordered.treeWithin_eq t.shapes.size unfolds unfolds.lt_size).symm
  · rintro rfl
    exact ordered.unfolds_treeWithin inside inside

theorem tree_eq_iff (distinct : t.shapes.toList.Nodup) {one other : TypeId}
    (inside : one.index < t.shapes.size) (otherInside : other.index < t.shapes.size) :
    t.tree one = t.tree other ↔ one = other := by
  constructor
  · intro same
    have first := (ordered.unfolds_iff inside).mpr rfl
    rw [same] at first
    exact first.injective distinct ((ordered.unfolds_iff otherInside).mpr rfl)
  · rintro rfl
    rfl

end Ordered

/-- The entry for the nullable form of a type is written out as the type is, but for its own mark. -/
theorem Unfolds.asNullable {id result : TypeId} {tree : TypeTree} (unfolds : t.Unfolds id tree)
    (entry : t.shapes[result.index]? = some (t.get id).asNullable) :
    t.Unfolds result tree.asNullable := by
  cases unfolds with
  | any shape =>
    rw [get_eq_of_getElem? shape] at entry
    exact .any entry
  | param shape =>
    rw [get_eq_of_getElem? shape] at entry
    exact .param entry
  | applied shape below =>
    rw [get_eq_of_getElem? shape] at entry
    exact .applied entry below

end TypeTable

namespace Project

variable (p : Project) (qualified : Bool)

def describeArg : TypeArg → String
  | .star => "*"
  | .type variance id => varianceWord variance ++ p.describeType id qualified

def describeShape : TypeShape → String
  | .any nullable => "Any" ++ nullableMark nullable
  | .param decl nullable => (p.decl decl).name ++ nullableMark nullable
  | .applied classifier args nullable =>
    p.classifierName qualified classifier ++ bracketed (args.map (p.describeArg qualified)) ++
      nullableMark nullable

variable {p qualified}

theorem describeType_of_unfolds (ordered : p.types.Ordered) {id : TypeId} {tree : TypeTree}
    (unfolds : p.types.Unfolds id tree) :
    p.describeType id qualified = p.describeTree qualified tree := by
  rw [describeType, (ordered.unfolds_iff unfolds.lt_size).mp unfolds]

theorem describeArgs_of_unfoldsAll (ordered : p.types.Ordered) {args : List TypeArg}
    {trees : List TypeTreeArg} (unfolds : p.types.UnfoldsAll args trees) :
    p.describeArgs qualified trees = args.map (p.describeArg qualified) := by
  induction args generalizing trees with
  | nil =>
    cases unfolds
    rfl
  | cons arg args inductionHypothesis =>
    cases unfolds with
    | star rest => rw [describeArgs, inductionHypothesis rest, List.map_cons, describeArg]
    | type first rest =>
      rw [describeArgs, inductionHypothesis rest, List.map_cons, describeArg,
        describeType_of_unfolds ordered first]

/-- The text of a type follows its entry, and that of an argument the entry of the argument. -/
theorem describeType_eq (ordered : p.types.Ordered) {id : TypeId}
    (inside : id.index < p.types.shapes.size) :
    p.describeType id qualified = p.describeShape qualified (p.types.get id) := by
  obtain ⟨tree, unfolds⟩ : ∃ tree, p.types.Unfolds id tree :=
    ⟨_, (ordered.unfolds_iff inside).mpr rfl⟩
  rw [describeType_of_unfolds ordered unfolds]
  cases unfolds with
  | any entry | param entry =>
    rw [TypeTable.get_eq_of_getElem? entry]
    rfl
  | applied entry below =>
    rw [TypeTable.get_eq_of_getElem? entry, describeTree, describeShape,
      describeArgs_of_unfoldsAll ordered below]

end Project

end Relocation
