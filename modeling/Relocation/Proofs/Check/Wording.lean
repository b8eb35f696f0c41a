import Relocation.Proofs.Check.Run
import Relocation.Proofs.Project.Built
import Relocation.Proofs.Text.Slots
set_option autoImplicit false

/-!
The texts of conflicts, for arguments of any spelling.

The places of a message stand apart, so the words of the message come out as they are and each
place gets its argument. An argument is not left alone, however: the later arguments are put into
it. It comes out as it went in if it spells the placeholder of none of them. Names may contain
braces, and a declaration whose name spells a placeholder is reported under another name.
-/

namespace Relocation

namespace Message

theorem apart_template : ∀ message ∈ catalogue, Text.Apart (Text.parts message.template) := by
  decide +kernel

/-- The conflict is worded by the message, with one text in each of its places. -/
structure Worded (message : Message) (arguments : List String) : Prop where
  /-- The places are filled at once, with the arguments that the later ones have been put into. -/
  filled : message.conflict arguments = {
    code := message.code
    severity := message.severity
    text := Text.capitalize (Text.fillAtOnce message.template (Text.settle arguments)) }
  /-- Arguments that spell no placeholder of a later one are put in verbatim. -/
  verbatim : Text.Settled arguments →
    (message.conflict arguments).text =
      Text.capitalize (Text.fillAtOnce message.template arguments)

/-- A message keeps its words and gives every place its argument, and gives it verbatim unless one
of the arguments spells the placeholder of a later one. -/
theorem worded_of_mem_catalogue {message : Message} (listed : message ∈ catalogue)
    (arguments : List String) : message.Worded arguments := by
  have filled : Text.fill message.template arguments =
      Text.fillAtOnce message.template (Text.settle arguments) :=
    Text.fill_eq_fillAtOnce (apart_template message listed) arguments
  constructor
  · rw [conflict, filled]
  · intro settled
    rw [conflict, filled, settled.settle_eq]

/-- An argument may spell the placeholder of an earlier one, or its own. -/
theorem worded_inaccessible :
    (inaccessible ∈ catalogue ∧ Text.Settled ["function \x7b0\x7d()", "property \x7b0\x7d"]) ∧
      inaccessible.Worded ["function \x7b0\x7d()", "property \x7b0\x7d"] ∧
      (inaccessible.conflict ["function \x7b0\x7d()", "property \x7b0\x7d"]).text =
        "Function \x7b0\x7d() uses property \x7b0\x7d which will be inaccessible after move" := by
  have listed : inaccessible ∈ catalogue := by decide
  have settled : Text.Settled ["function \x7b0\x7d()", "property \x7b0\x7d"] := by decide +kernel
  have worded := worded_of_mem_catalogue listed ["function \x7b0\x7d()", "property \x7b0\x7d"]
  refine ⟨⟨listed, settled⟩, worded, ?_⟩
  rw [worded.verbatim settled]
  decide +kernel

end Message

/-- Function `{1}` uses the private property `secret` of its file. -/
def bracesCalls : List BuilderCall := [
  .module "core" .jvm, .directory "a" (.module ⟨0⟩ false) ⟨"a"⟩,
  .file ⟨0⟩ "Secret.kt" none, .file ⟨0⟩ "Open.kt" none,
  .decl { name := "secret", kind := .property, parent := .file ⟨0⟩, visibility := .priv },
  .decl { name := "\x7b1\x7d", kind := .function, parent := .file ⟨0⟩ },
  .referenceFrom ⟨1⟩ ⟨0⟩ {}]

def braces : Project := (Project.run? {} bracesCalls).getD {}

def moveBraces : Pass := .ofDecls braces braces.services {} (.file ⟨1⟩) [⟨1⟩]

/-- The conflict blames a function `property secret()`, which does not exist. -/
theorem argument_filled_again :
    (braces.Built ∧ Message.inaccessible ∈ Message.catalogue ∧
      braces.describeDecl .plain ⟨1⟩ = "function \x7b1\x7d()" ∧
      braces.describeDecl .plain ⟨0⟩ = "property secret") ∧
    moveBraces.check {} = .ok { report := ⟨[(.reference ⟨0⟩,
      [Message.inaccessible.conflict ["function \x7b1\x7d()", "property secret"]])]⟩ } ∧
    (Message.inaccessible.conflict ["function \x7b1\x7d()", "property secret"]).text =
      "Function property secret() uses property secret which will be inaccessible after move" ∧
    Text.capitalize (Text.fillAtOnce Message.inaccessible.template
        ["function \x7b1\x7d()", "property secret"]) =
      "Function \x7b1\x7d() uses property secret which will be inaccessible after move" := by
  refine ⟨⟨⟨bracesCalls, rfl⟩, by decide, ?_, ?_⟩, ?_, ?_, ?_⟩
  all_goals decide +kernel

end Relocation
