import Relocation.Proofs.Project.Listed
import Relocation.Proofs.Sealed.Hierarchy
set_option autoImplicit false

/-!
The reverse indexes of a project that is built.

A project says what each reference resolves to and which supertypes each class declares. The indexes
say the same from the other side: who refers to a declaration, and who inherits from it. Nothing is
missing and nothing is listed twice, not even a class that declares one supertype with several
arguments, and what comes first in the project comes first in the index. When and in what order the
builder was told does not matter.
-/

namespace Relocation.Project

/-- A list of all entries that point at something, each once, in the order of their numbers. -/
structure AllInOrder {Id : Type} (number : Id → Nat) (points : Id → Prop) (listed : List Id) :
    Prop where
  mem : ∀ id, id ∈ listed ↔ points id
  increasing : listed.Pairwise fun one other => number one < number other

theorem AllInOrder.nodup {Id : Type} {number : Id → Nat} {points : Id → Prop} {listed : List Id}
    (all : AllInOrder number points listed) : listed.Nodup :=
  all.increasing.imp fun before same => Nat.ne_of_lt before (congrArg number same)

theorem allInOrder_filter {Id : Type} {number : Id → Nat} {points : Id → Prop} {entries : List Id}
    {test : Id → Bool} (decides : ∀ id, test id = true ↔ points id)
    (known : ∀ id, points id → id ∈ entries)
    (sorted : entries.Pairwise fun one other => number one < number other) :
    AllInOrder number points (entries.filter test) where
  mem := by
    intro id
    rw [List.mem_filter, decides, and_iff_right_iff_imp]
    exact known id
  increasing := sorted.filter test

variable {p : Project}

theorem pairwise_refIds : p.refIds.Pairwise fun one other => one.index < other.index :=
  List.pairwise_lt_range.map _ fun _ _ before => before

theorem pairwise_declIds : p.declIds.Pairwise fun one other => one.index < other.index :=
  List.pairwise_lt_range.map _ fun _ _ before => before

theorem referencesTo_allInOrder (listed : p.Listed) (target : DeclId) :
    AllInOrder RefId.index (fun id => (p.reference id).target = some target)
      (p.services.referencesTo target) := by
  by_cases inside : target ∈ p.declIds
  · rw [p.referencesTo_eq inside]
    exact allInOrder_filter (fun id => beq_iff_eq) (fun id => mem_refIds_of_target) pairwise_refIds
  · -- Nothing resolves to a declaration that is not there.
    rw [p.referencesTo_of_not_mem inside]
    refine ⟨fun id => ?_, List.Pairwise.nil⟩
    exact iff_of_false List.not_mem_nil fun resolved => inside (listed.target id target resolved)

theorem directInheritors_allInOrder {parent : DeclId} (inside : parent ∈ p.declIds) :
    AllInOrder DeclId.index (fun id => parent ∈ p.supertypeDecls id)
      (p.services.directInheritors parent) := by
  rw [p.directInheritors_eq inside]
  exact allInOrder_filter (fun id => List.contains_iff_mem)
    (fun id => mem_declIds_of_supertype) pairwise_declIds

/-- The indexes list exactly what points at a declaration. -/
structure IndexesExact (p : Project) : Prop where
  references : ∀ target, AllInOrder RefId.index (fun id => (p.reference id).target = some target)
    (p.services.referencesTo target)
  inheritors : ∀ parent ∈ p.declIds, AllInOrder DeclId.index
    (fun id => parent ∈ p.supertypeDecls id) (p.services.directInheritors parent)
  once : ∀ id ∈ p.declIds,
    (p.services.referencesTo id).Nodup ∧ (p.services.directInheritors id).Nodup

theorem indexes_exact {calls : List BuilderCall} {p : Project} (made : run? {} calls = some p) :
    p.IndexesExact := by
  have built : p.Built := ⟨calls, made⟩
  constructor
  · exact referencesTo_allInOrder built.listed
  · intro parent inside
    exact directInheritors_allInOrder inside
  · intro id inside
    exact ⟨(referencesTo_allInOrder built.listed id).nodup,
      (directInheritors_allInOrder inside).nodup⟩

/-- `Shelf` declares `Box` as a supertype twice, with different arguments. Its supertypes are added
after it and after those of `Crate`, which is made later. -/
def shelfCalls : List BuilderCall := [
  .module "core" .jvm, .directory "a" (.module ⟨0⟩ false) ⟨"a"⟩, .file ⟨0⟩ "Shelf.kt" none,
  .decl { name := "Shelf", kind := .plainClass, parent := .file ⟨0⟩ },
  .decl { name := "Box", kind := .interface, parent := .file ⟨0⟩ },
  .decl { name := "Crate", kind := .plainClass, parent := .file ⟨0⟩ },
  .decl { name := "pack", kind := .function, parent := .file ⟨0⟩ },
  .internedType (.applied ⟨1⟩ [.type .invariant TypeTable.any] false),
  .internedType (.applied ⟨1⟩ [.star] false),
  .supertype ⟨2⟩ ⟨2⟩, .supertype ⟨0⟩ ⟨2⟩, .supertype ⟨0⟩ ⟨3⟩,
  .referenceFrom ⟨3⟩ ⟨1⟩ {}, .referenceFrom ⟨3⟩ ⟨2⟩ {}, .referenceFrom ⟨0⟩ ⟨1⟩ {}]

def shelf : Project := (run? {} shelfCalls).getD {}

theorem indexes_exact_shelf : run? {} shelfCalls = some shelf ∧ shelf.IndexesExact ∧
    shelf.supertypeDecls ⟨0⟩ = [⟨1⟩, ⟨1⟩] ∧ shelf.services.directInheritors ⟨1⟩ = [⟨0⟩, ⟨2⟩] ∧
    shelf.services.referencesTo ⟨1⟩ = [⟨0⟩, ⟨2⟩] := by
  have made : run? {} shelfCalls = some shelf := rfl
  exact ⟨made, indexes_exact made, by decide +kernel, by decide +kernel, by decide +kernel⟩

end Relocation.Project
