import Mathlib.Data.List.TFAE
import Mathlib.Tactic.TFAE
import Relocation.Proofs.Project.Forest
set_option autoImplicit false

/-!
The depth at which walks outwards are cut off.

The search for the file, the search for an ancestor and the chain of containers count different
things: parents looked at, steps taken, containers collected. They stop at the same depth all the
same. A declaration in no more than 255 others has its file by all three, and a deeper one has it by
none, so what they say about module, package and containment goes together. Names are cut off there
too: up to that depth the name of a declaration continues that of its container.
-/

namespace Relocation.Project

variable {p : Project} {id : DeclId} {owners : List DeclId} {file : FileId}

theorem Ascends.nameFrom_eq (way : p.Ascends id owners file) {count more : Nat}
    (short : owners.length < count) (shorter : owners.length < more) :
    p.nameFrom count (p.container id) = p.nameFrom more (p.container id) := by
  rw [Project.nameFrom_eq, Project.nameFrom_eq, way.containersFrom short,
    way.containersFrom shorter]

theorem qualifiedName_eq_child (found : p.fileOf? id = some file) :
    p.qualifiedName id = (p.nameOfContainer (p.container id)).child (p.decl id).name := by
  obtain ⟨owners, way, short⟩ := fileWithin_eq_some_iff.mp found
  rw [qualifiedName_eq, container_eq]
  cases way with
  | file parent =>
    rw [parent]
    rfl
  | @owner _ owner owners _ parent further =>
    have shorter : owners.length < chainLimit - 1 := Nat.lt_sub_of_add_lt short
    rw [parent, containerOf, nameOfContainer, qualifiedName_eq,
      further.nameFrom_eq (Nat.lt_of_succ_lt short) shorter]
    rfl

def innerClass (owner : DeclId) : Declaration where
  name := "Inner"
  kind := .plainClass
  parent := .decl owner

/-- Declarations can be nested to any depth, so there are some on either side of the limit. -/
theorem exists_built_at_depth (depth : Nat) : ∃ p : Project, p.Built ∧ ∃ id ∈ p.declIds,
    ∃ owners file, p.Ascends id owners file ∧ owners.length = depth := by
  induction depth with
  | zero =>
    have parent : (garden.decl ⟨0⟩).parent = .file ⟨0⟩ := by decide +kernel
    exact ⟨garden, ⟨gardenCalls, rfl⟩, ⟨0⟩, by decide +kernel, [], ⟨0⟩, .file parent, rfl⟩
  | succ depth inductionHypothesis =>
    obtain ⟨p, built, id, known, owners, file, way, rfl⟩ := inductionHypothesis
    have extension : p.Extends (p.addDecl (innerClass id)) := Extends.addDecl rfl known
    have listed : p.nextDecl ∈ (p.addDecl (innerClass id)).declIds :=
      (mem_declIds_addDecl _).mpr (Or.inr rfl)
    have parent : ((p.addDecl (innerClass id)).decl p.nextDecl).parent = .decl id :=
      parent_addDecl_nextDecl _
    have above := extension.keeps.ascends built.listed way known
    exact ⟨_, extension.built built, p.nextDecl, listed, id :: owners, file,
      .owner parent above, rfl⟩

/-- Walks outwards agree on how far they go. -/
structure WalksAgree (p : Project) : Prop where
  /-- Whether a declaration has a file is the same question to every walk. -/
  file : ∀ id file, List.TFAE [
    p.fileOf? id = some file,
    p.isAncestor (.file file) (.decl id) = true,
    (p.containers id).getLast? = some (.package (p.fragmentOfFile file)),
    ∃ owners, p.Ascends id owners file ∧ owners.length ≤ 255]
  ancestor : ∀ outer inner, p.isAncestor outer inner = true ↔
    ∃ steps ≤ 256, p.StepsOut steps inner outer
  name : ∀ id, (p.fileOf? id).isSome = true →
    p.qualifiedName id = (p.nameOfContainer (p.container id)).child (p.decl id).name

theorem walks_cut_off_together (p : Project) : p.WalksAgree where
  file := by
    intro id file
    have short : (∃ owners, p.Ascends id owners file ∧ owners.length < chainLimit) ↔
        ∃ owners, p.Ascends id owners file ∧ owners.length ≤ 255 := by
      simp only [chainLimit, Nat.lt_succ_iff]
    tfae_have 1 ↔ 4 := fileWithin_eq_some_iff.trans short
    tfae_have 2 ↔ 4 := liesWithin_file_iff.trans short
    tfae_have 3 ↔ 4 := getLast?_containersFrom_iff.trans short
    tfae_finish
  ancestor := fun _ _ => liesWithin_iff
  name := by
    intro id found
    obtain ⟨file, found⟩ := Option.isSome_iff_exists.mp found
    exact qualifiedName_eq_child found

end Relocation.Project
