import Relocation.Proofs.Manifest.Descent
set_option autoImplicit false

/-!
Where the fault of a text lies that is no type.

The stages refuse a character only if no type can have it there, since from every stage some text leads
to a type. So a fault lies at the first such character, or at the end of a text that breaks off.
-/

namespace Relocation.TypeText

theorem byteCount_append (one other : List Char) :
    byteCount (one ++ other) = byteCount one + byteCount other := by
  induction one with
  | nil => exact (Nat.zero_add _).symm
  | cons c one inductionHypothesis =>
    rw [List.cons_append, byteCount, byteCount, inductionHypothesis, Nat.add_assoc]

theorem utf8ByteSize_ofList (text : List Char) :
    (String.ofList text).utf8ByteSize = byteCount text := by
  induction text with
  | nil => rfl
  | cons c text inductionHypothesis =>
    have apart : String.ofList (c :: text) = String.singleton c ++ String.ofList text := by simp
    rw [apart, String.utf8ByteSize_append, String.utf8ByteSize_singleton, inductionHypothesis,
      byteCount]

theorem Fault.offset_append (fault : Fault) (before : List Char) :
    fault.offset (before ++ fault.rest) = byteCount before := by
  rw [offset, byteCount_append, Nat.add_sub_cancel]

theorem isValid_byteCount (before after : List Char) :
    String.Pos.Raw.IsValid (String.ofList (before ++ after)) ⟨byteCount before⟩ := by
  rw [String.Pos.Raw.isValid_iff_exists_append]
  refine ⟨String.ofList before, String.ofList after, String.ofList_append, ?_⟩
  rw [← utf8ByteSize_ofList]
  rfl

/-- A fault lies behind `before`, which some types begin with, at a character that they cannot have
there or at the end of the text. -/
structure Fault.IsFirst (fault : Fault) (text before : List Char) : Prop where
  split : text = before ++ fault.rest
  offset : fault.offset text = byteCount before
  boundary : String.Pos.Raw.IsValid (String.ofList text) ⟨fault.offset text⟩
  completable : ∃ more type, read (before ++ more) = .ok type
  offends : ∀ c after, fault.rest = c :: after → ∀ more type, read (before ++ c :: more) ≠ .ok type

theorem faults_at_first_offence {text : List Char} {fault : Fault}
    (rejected : read text = .error fault) : ∃ before, fault.IsFirst text before := by
  have refused : Stage.start.finish text = .error fault.rest := by
    rw [Stage.finish_start, rejected]
    rfl
  obtain ⟨before, last, rfl, went, stuck⟩ := Stage.exists_refusal refused
  refine ⟨before, rfl, fault.offset_append before, ?_, ?_, ?_⟩
  · rw [fault.offset_append]
    exact isValid_byteCount before fault.rest
  · obtain ⟨type, finished⟩ := last.exists_finish_completion
    refine ⟨last.completion, type, read_eq_ok_iff.mpr ?_⟩
    rw [Stage.finish_append went, finished]
  · intro c after here more type returned
    have goes : last.next? c = none := stuck c (by simp [here])
    rw [read_eq_ok_iff, Stage.finish_append went, Stage.finish, goes] at returned
    cases returned

/-- Behind `out` and a tab the argument has a name, so another name is the first offence. It lies behind
twelve bytes, two of which belong to one character each of `ö` and `ß`. -/
theorem first_offence_size : ∃ fault, read "Größe<out\t名>".toList = .error fault ∧
    fault.problem = .noSeparator ∧ fault.rest = "名>".toList ∧
    fault.IsFirst "Größe<out\t名>".toList "Größe<out\t".toList ∧
    fault.offset "Größe<out\t名>".toList = 12 := by
  have evaluated : (match read "Größe<out\t名>".toList with
      | .ok _ => none
      | .error fault => some (fault.problem, fault.rest)) = some (.noSeparator, "名>".toList) := by
    decide +kernel
  cases rejected : read "Größe<out\t名>".toList with
  | ok type =>
    rw [rejected] at evaluated
    cases evaluated
  | error fault =>
    rw [rejected] at evaluated
    obtain ⟨problem, rest⟩ := Prod.mk.inj (Option.some.inj evaluated)
    obtain ⟨before, first⟩ := faults_at_first_offence rejected
    have same : before = "Größe<out\t".toList := by
      have split := first.split
      rw [rest] at split
      exact (List.append_cancel_right (split.symm.trans rfl))
    subst same
    have bytes : byteCount "Größe<out\t".toList = 12 := by decide
    exact ⟨fault, rfl, problem, rest, first, first.offset.trans bytes⟩

end Relocation.TypeText
