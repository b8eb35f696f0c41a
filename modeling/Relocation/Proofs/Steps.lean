set_option autoImplicit false

/-!
Sequences of steps each of which may fail. A sequence gives a result only if all its steps do, so
what each step keeps is kept by the sequence.
-/

namespace Relocation

theorem bind_eq_ok {Fault Middle Result : Type} {first : Except Fault Middle}
    {second : Middle → Except Fault Result} {result : Result} :
    (first >>= second) = .ok result ↔ ∃ middle, first = .ok middle ∧ second middle = .ok result := by
  cases first with
  | error fault => exact ⟨nofun, nofun⟩
  | ok middle =>
    constructor
    · exact fun done => ⟨middle, rfl, done⟩
    · rintro ⟨_, same, done⟩
      cases same
      exact done

theorem bind_pure_eq_ok {Fault Middle Result : Type} {first : Except Fault Middle}
    {form : Middle → Result} {result : Result} :
    (first >>= fun middle => pure (form middle)) = .ok result ↔
      ∃ middle, first = .ok middle ∧ result = form middle := by
  rw [bind_eq_ok]
  constructor
  · rintro ⟨middle, same, done⟩
    cases done
    exact ⟨middle, same, rfl⟩
  · rintro ⟨middle, same, rfl⟩
    exact ⟨middle, same, rfl⟩

/-- What holds at the start of a fold and is kept by every step, in view of the entries that have
been taken, holds at its end. -/
theorem foldlM_induction {State Entry Fault : Type} {step : State → Entry → Except Fault State}
    {entries : List Entry} {first last : State} (motive : List Entry → State → Prop)
    (start : motive [] first)
    (next : ∀ taken, ∀ entry ∈ entries, ∀ before after, motive taken before →
      step before entry = .ok after → motive (taken ++ [entry]) after)
    (returned : entries.foldlM step first = .ok last) : motive entries last := by
  have general : ∀ rest taken before, taken ++ rest = entries → motive taken before →
      rest.foldlM step before = .ok last → motive entries last := by
    intro rest
    induction rest with
    | nil =>
      intro taken before all holds finished
      cases finished
      rw [← all, List.append_nil]
      exact holds
    | cons entry rest inductionHypothesis =>
      intro taken before all holds running
      rw [List.foldlM_cons, bind_eq_ok] at running
      obtain ⟨after, stepped, running⟩ := running
      have listed : entry ∈ entries := all ▸ List.mem_append_right _ (List.mem_cons_self ..)
      exact inductionHypothesis (taken ++ [entry]) after (by simpa using all)
        (next taken entry listed before after holds stepped) running
  exact general entries [] first rfl start returned

theorem foldlM_some_induction {State Entry : Type} {step : State → Entry → Option State}
    {motive : State → Prop} {entries : List Entry} {first last : State} (start : motive first)
    (next : ∀ before entry after, motive before → step before entry = some after → motive after)
    (made : entries.foldlM step first = some last) : motive last := by
  induction entries generalizing first with
  | nil =>
    cases made
    exact start
  | cons entry rest inductionHypothesis =>
    simp only [List.foldlM_cons, Option.bind_eq_bind, Option.bind_eq_some_iff] at made
    obtain ⟨middle, stepped, made⟩ := made
    exact inductionHypothesis (next first entry middle start stepped) made

theorem exists_foldlM_eq_ok {State Entry Fault : Type} {step : State → Entry → Except Fault State}
    {entries : List Entry}
    (next : ∀ entry ∈ entries, ∀ before, ∃ after, step before entry = .ok after) (first : State) :
    ∃ last, entries.foldlM step first = .ok last := by
  induction entries generalizing first with
  | nil => exact ⟨first, rfl⟩
  | cons entry rest inductionHypothesis =>
    obtain ⟨here, later⟩ := List.forall_mem_cons.mp next
    obtain ⟨after, stepped⟩ := here first
    obtain ⟨last, finished⟩ := inductionHypothesis later after
    exact ⟨last, by rw [List.foldlM_cons, stepped]; exact finished⟩

theorem exists_eq_ok {Fault Result : Type} {step : Except Fault Result} {property : Result → Prop}
    [DecidablePred property] (holds : step.toOption.any (fun result => property result) = true) :
    ∃ result, step = .ok result ∧ property result := by
  cases step with
  | error fault => cases holds
  | ok result => exact ⟨result, rfl, of_decide_eq_true holds⟩

end Relocation
