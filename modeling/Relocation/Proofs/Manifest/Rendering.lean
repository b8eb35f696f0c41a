import Relocation.Check.Describe
import Relocation.Proofs.Manifest.Addressing
import Relocation.Proofs.Manifest.Spelling
set_option autoImplicit false

/-!
Types written out by qualified names. As long as no declaration has an `id` of its own, a name that a
manifest uses for a declaration is its qualified name. So the type that a text stands for is written
as the text, but for white space, and what is written stands for that type again.
-/

namespace Relocation

namespace Project

theorem toList_nullableMark (nullable : Bool) :
    (nullableMark nullable).toList = TypeText.printRest [] nullable := by
  cases nullable <;> rfl

theorem toList_varianceWord (variance : Variance) :
    (varianceWord variance).toList = TypeText.variancePrint variance := by
  cases variance <;> rfl

theorem toList_bracketed {texts : List String} {args : List TypeTextArg}
    (same : texts.map String.toList = args.map TypeText.printArg) (nullable : Bool) :
    (bracketed texts ++ nullableMark nullable).toList = TypeText.printRest args nullable := by
  have nil : texts.isEmpty = true ↔ args = [] := by
    rw [List.isEmpty_iff, ← List.map_eq_nil_iff (f := String.toList), same, List.map_eq_nil_iff]
  rw [String.toList_append, toList_nullableMark, TypeText.printRest, TypeText.printRest, if_pos rfl,
    List.nil_append, bracketed]
  congr 1
  by_cases empty : args = []
  · rw [if_pos (nil.mpr empty), if_pos empty]
    rfl
  · rw [if_neg (fun none => empty (nil.mp none)), if_neg empty, String.toList_append,
      String.toList_append, commaSeparated, String.toList_intercalate, same,
      TypeText.printArgs_eq_intercalate]
    rfl

end Project

namespace Manifest

namespace Loader

open Project (Refines)

/-- Types can be written out: none contains itself, and names stand for what is called by them. -/
structure Legible (names : Names DeclId) (p : Project) : Prop where
  types : p.types.Ordered
  names : ∀ key id, names.lookup key = some id → (p.qualifiedName id).text = key

variable {names : Names DeclId} {context : DeclId} {text : String}

mutual

/-- A type is written as the text that it has been made of. Arguments stand before their entry in the
table, so unfolding ends if it may go deeper than the place of the entry. -/
theorem Legible.toList_describeTree {s : Project} (legible : Legible names s) :
    ∀ {type : TypeText} {p q : Project} {id : TypeId} {depth : Nat},
      internType names context text type p = .ok (id, q) → q.Refines s → id.index < depth →
        (s.describeTree true (s.types.treeWithin depth id)).toList = TypeText.print type
  | .node name args nullable, p, q, id, depth + 1, returned, refines, inside => by
    have through := (refines_internType returned).trans refines
    rw [internType_node] at returned
    rw [TypeText.print_node]
    split at returned
    next means =>
      obtain ⟨rfl, bare⟩ := name_of_meaning_top means
      obtain rfl := List.isEmpty_iff.mp bare
      have holds : s.types.Holds (.any nullable) id := by
        cases nullable with
        | false =>
          cases returned
          exact legible.types.holds_any
        | true =>
          cases returned
          exact legible.types.holds_nullableAny
      rw [holds.treeWithin, TypeTable.unfoldShape, Project.describeTree, String.toList_append,
        Project.toList_nullableMark]
    next param means =>
      obtain ⟨same, bare⟩ := name_of_meaning_param means
      obtain rfl := List.isEmpty_iff.mp bare
      have holds : s.types.Holds (.param param nullable) id := by
        cases nullable with
        | false => exact Project.holds_of_taken (Except.ok.inj returned) refines
        | true => exact Project.holds_of_taken (Except.ok.inj returned) refines
      rw [holds.treeWithin, TypeTable.unfoldShape, Project.describeTree, String.toList_append,
        Project.toList_nullableMark, through.name, same]
    next classifier means =>
      obtain ⟨⟨ids, middle⟩, interned, done⟩ := bind_eq_ok.mp returned
      have taken := Except.ok.inj done
      have holds := Project.holds_of_taken taken refines
      -- The arguments stand before the entry, so one step less of unfolding is enough for them.
      have earlier (variance : Variance) (arg : TypeId) (listed : .type variance arg ∈ ids) :
          arg.index < depth :=
        have before := legible.types.args _ _ holds.getElem? variance arg listed
        Nat.lt_of_lt_of_le before (Nat.le_of_lt_succ inside)
      have args := legible.toList_describeArgs interned
        ((Project.refines_of_taken taken).trans refines) earlier
      rw [holds.treeWithin, TypeTable.unfoldShape, Project.describeTree, String.append_assoc,
        String.toList_append, Project.toList_bracketed args, Project.classifierName, if_pos rfl,
        legible.names _ _ (lookup_of_meaning_classifier means)]
    · cases returned

theorem Legible.toList_describeArgs {s : Project} (legible : Legible names s) :
    ∀ {args : List TypeTextArg} {p q : Project} {ids : List TypeArg} {depth : Nat},
      internArgs names context text args p = .ok (ids, q) → q.Refines s →
        (∀ variance id, TypeArg.type variance id ∈ ids → id.index < depth) →
          (s.describeArgs true (ids.map (s.types.unfoldArg depth))).map String.toList =
            args.map TypeText.printArg
  | [], p, q, ids, depth, returned, refines, inside => by
    unfold internArgs at returned
    cases returned
    rfl
  | .star :: rest, p, q, ids, depth, returned, refines, inside => by
    unfold internArgs at returned
    obtain ⟨⟨others, middle⟩, interned, done⟩ := bind_eq_ok.mp returned
    cases done
    have rest := legible.toList_describeArgs interned refines fun variance id listed =>
      inside variance id (List.mem_cons_of_mem _ listed)
    exact congrArg (['*'] :: ·) rest
  | .type variance type :: rest, p, q, ids, depth, returned, refines, inside => by
    unfold internArgs at returned
    obtain ⟨⟨id, middle⟩, first, returned⟩ := bind_eq_ok.mp returned
    obtain ⟨⟨others, last⟩, second, done⟩ := bind_eq_ok.mp returned
    cases done
    have head := legible.toList_describeTree first ((refines_internArgs second).trans refines)
      (inside variance id (List.mem_cons_self ..))
    have rest := legible.toList_describeArgs second refines fun variance id listed =>
      inside variance id (List.mem_cons_of_mem _ listed)
    rw [List.map_cons, TypeTable.unfoldArg, Project.describeArgs, List.map_cons, rest,
      String.toList_append, head, Project.toList_varianceWord]
    rfl

end

/-- The written form of a type, against a text that stands for it. -/
structure Spelled (names : Names DeclId) (p : Project) (context : DeclId) (text : String)
    (type : TypeId) : Prop where
  canonical : ∃ parsed, TypeText.read text.toList = .ok parsed ∧
    (p.describeType type true).toList = TypeText.print parsed ∧
      TypeText.read (p.describeType type true).toList = .ok parsed
  visible : TypeText.visible (p.describeType type true).toList = TypeText.visible text.toList
  tidy : TypeText.Tidy (p.describeType type true).toList
  denotes : Denotes names p context (p.describeType type true) type

theorem Legible.refine {p q : Project} (legible : Legible names p) (refines : p.Refines q)
    (types : q.types.Ordered) : Legible names q where
  types := types
  names := by
    intro key id found
    rw [refines.qualifiedName]
    exact legible.names key id found

theorem Legible.spelled {p q : Project} {type : TypeId} (legible : Legible names q)
    (ordered : p.types.Ordered) (returned : resolveType names p context text = .ok (type, q)) :
    Spelled names q context text type := by
  obtain ⟨parsed, read, interned⟩ := resolveType_eq_ok.mp returned
  have inside := (ordered_internType interned ordered).2
  have written : (q.describeType type true).toList = TypeText.print parsed :=
    legible.toList_describeTree interned (Refines.refl q) inside
  have named := TypeText.named_of_read read
  have readAgain : TypeText.read (q.describeType type true).toList = .ok parsed := by
    rw [written]
    exact TypeText.read_print named
  refine ⟨⟨parsed, read, written, readAgain⟩, ?_, ?_, ?_⟩
  · rw [written]
    exact TypeText.visible_of_read read
  · rw [written]
    exact TypeText.tidy_print named
  · exact resolveType_eq_ok.mpr ⟨parsed, readAgain, internType_again interned (Refines.refl q)⟩

end Loader

open Loader (Legible Signed Spelled)

variable {m : Manifest} {p : Project}

/-- Without `id`s, what a manifest calls a declaration by is its qualified name. -/
theorem Loaded.legible {l : Loader} (loaded : Loaded m l p)
    (noIds : ∀ placed ∈ m.outline, placed.head.id = none) : Legible l.decls p where
  types := loaded.types
  names := by
    intro key id found
    have noHolders : m.withId key = [] := by
      rw [List.eq_nil_iff_forall_not_mem]
      intro other holder
      obtain ⟨placed, listed, has, -⟩ := mem_withId.mp holder
      rw [noIds placed listed] at has
      cases has
    have called : m.named p key = some id := by
      rw [← loaded.declNamed_eq]
      exact found
    rw [named, noHolders, List.getLast?_nil, Option.none_or] at called
    unfold Project.findDecl? at called
    simpa using List.find?_some called

/-- Where no declaration has an `id`, the type that a text stands for is written as that text with
white space where it belongs, and what is written stands for the same type, which is there. Among
these types are all those that declarations have been given. -/
theorem types_written_as_spelled (returned : load m = .ok p)
    (noIds : ∀ placed ∈ m.outline, placed.head.id = none) :
    ∃ l, declared m = .ok l ∧ (∀ placed ∈ m.outline, Signed l.decls p placed.id placed.head) ∧
      ∀ context text type q, Loader.resolveType l.decls p context text = .ok (type, q) →
        Spelled l.decls q context text type := by
  obtain ⟨l, made, loaded⟩ := loaded_of_load returned
  refine ⟨l, made, loaded.signed, ?_⟩
  intro context text type q resolved
  have legible := loaded.legible noIds
  have types := Loader.ordered_resolveType resolved legible.types
  obtain ⟨table, grows, rfl⟩ := Loader.frame_resolveType resolved
  exact (legible.refine (Project.Refines.withTypes grows) types).spelled legible.types resolved

theorem types_written_boxes : ∃ p l type q, load boxes = .ok p ∧
    (∀ placed ∈ boxes.outline, placed.head.id = none) ∧ declared boxes = .ok l ∧
    Loader.resolveType l.decls p ⟨2⟩ "a.Box< out  a.Box <T ?> , a.Crate> ?" = .ok (type, q) ∧
    Spelled l.decls q ⟨2⟩ "a.Box< out  a.Box <T ?> , a.Crate> ?" type ∧
    q.describeType type true = "a.Box<out a.Box<T?>, a.Crate>?" := by
  obtain ⟨p, returned, evaluated⟩ : ∃ p, load boxes = .ok p ∧
      (declared boxes).toOption.any (fun l =>
        (Loader.resolveType l.decls p ⟨2⟩ "a.Box< out  a.Box <T ?> , a.Crate> ?").toOption.any
          (fun result => result.2.describeType result.1 true = "a.Box<out a.Box<T?>, a.Crate>?") =
            true) = true := by
    apply exists_eq_ok
    decide +kernel
  obtain ⟨l, made, evaluated⟩ := exists_eq_ok evaluated
  obtain ⟨⟨type, q⟩, resolved, written⟩ := exists_eq_ok evaluated
  have noIds : ∀ placed ∈ boxes.outline, placed.head.id = none := by decide +kernel
  obtain ⟨other, same, -, spelled⟩ := types_written_as_spelled returned noIds
  rw [made] at same
  cases same
  exact ⟨p, l, type, q, returned, noIds, made, resolved, spelled _ _ _ _ resolved, written⟩

end Manifest

end Relocation
