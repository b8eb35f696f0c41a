import Relocation.Proofs.Manifest.Descent
set_option autoImplicit false

/-!
White space between the tokens of a type.

White space leads from a stage to one that no further white space changes, and which goes on as the
stage itself does, except behind the first word of an argument: there a space makes a variance of `out`
and `in`, and nothing else does. So white space may be added and exchanged freely unless this changes
whether a space follows such a word, and then the text is rejected.
-/

namespace Relocation.TypeText

open Text

/-- A text ends in the word of a variance, and this is the first one of an argument. -/
def EndsInWord (before : List Char) : Prop :=
  ∃ head mark gap word, before = head ++ mark :: (gap ++ word) ∧ (mark = '<' ∨ mark = ',') ∧
    (∀ c ∈ gap, isBlank c = true) ∧ (word = ['o', 'u', 't'] ∨ word = ['i', 'n'])

def SplitsName (before after : List Char) : Prop :=
  (∃ c ∈ before.getLast?, isNameChar c = true) ∧ ∃ c ∈ after.head?, isNameChar c = true

namespace Stage

variable {stage : Stage}

theorem Still.run?_blank (still : stage.Still) {gap : List Char}
    (blank : ∀ c ∈ gap, isBlank c = true) : stage.run? gap = some stage := by
  induction gap with
  | nil => rfl
  | cons c gap inductionHypothesis =>
    obtain ⟨here, others⟩ := List.forall_mem_cons.mp blank
    rw [run?_cons, next?_of_blank here, still, Option.bind_some, inductionHypothesis others]

/-- Only the first character of white space counts. -/
theorem run?_gap {gap : List Char} (blank : ∀ c ∈ gap, isBlank c = true) (nonempty : gap ≠ []) :
    stage.run? gap = some (stage.pause (gap.head? == some ' ')) := by
  cases gap with
  | nil => exact absurd rfl nonempty
  | cons c gap =>
    obtain ⟨here, others⟩ := List.forall_mem_cons.mp blank
    rw [run?_cons, next?_of_blank here, Option.bind_some, (still_pause stage _).run?_blank others]
    rfl

theorem finish_exchange {gap other : List Char} (blank : ∀ c ∈ gap, isBlank c = true)
    (otherBlank : ∀ c ∈ other, isBlank c = true) (nonempty : other ≠ []) (after : List Char) :
    stage.finish (other ++ after) =
      (stage.pause (other.head? == some ' ')).finish (gap ++ after) := by
  have still := stage.still_pause (other.head? == some ' ')
  rw [finish_append (run?_gap otherBlank nonempty), finish_append (still.run?_blank blank)]

/-- White space in front of a text makes no difference behind anything but a name that would go on,
and behind a word if there is a space in front of the text as well. -/
theorem finish_pause (stage : Stage) {space : Bool} {text : List Char}
    (ends : ∀ first variance name, stage.phase = .name first variance name →
      ∀ c ∈ text.head?, isNameChar c = false)
    (kept : ∀ variance name, stage.phase = .name true variance name → (word? name).isSome = true →
      (text.head? = some ' ' ↔ space = true)) :
    (stage.pause space).finish text = stage.finish text := by
  rcases stage with ⟨outer, phase⟩
  cases phase with
  | name first variance name =>
    have apart := ends first variance name rfl
    cases word : if first then word? name else none with
    | none =>
      have noWord : first = true → word? name = none := fun isFirst => by rwa [if_pos isFirst] at word
      have named : (if first && space then word? name else none) = none := by
        split
        next both => exact noWord (Bool.and_eq_true_iff.mp both).1
        · rfl
      rw [finish_named _ _ _ _ apart fun isFirst _ => noWord isFirst]
      simp only [pause, Phase.behindName, named]
    | some meant =>
      obtain ⟨rfl, word⟩ := Option.ite_none_right_eq_some.mp word
      have sameSpace := kept variance name rfl (Option.isSome_iff_exists.mpr ⟨meant, word⟩)
      cases space with
      | false =>
        have noSpace : text.head? ≠ some ' ' := fun here => Bool.false_ne_true (sameSpace.mp here)
        exact (finish_named _ _ _ _ apart fun _ here => absurd here noSpace).symm
      | true =>
        obtain ⟨rest, rfl⟩ : ∃ rest, text = ' ' :: rest := by
          have here := sameSpace.mpr rfl
          cases text with
          | nil => cases here
          | cons c rest => exact ⟨rest, by simpa using here⟩
        have goes : next? ⟨outer, .name true variance name⟩ ' ' =
            some (pause true ⟨outer, .name true variance name⟩) := next?_of_blank (by decide)
        have stays : next? (pause true ⟨outer, .name true variance name⟩) ' ' =
            some (pause true ⟨outer, .name true variance name⟩) := by
          rw [next?_of_blank (by decide), still_pause]
        rw [finish_cons _ goes, finish_cons _ stays]
  | _ => rfl

/-- A text that begins with a name is no end of a type, and the other way round. -/
theorem finish_named_ne_ok {outer others : List Frame} {variance meant : Variance}
    {name text : List Char} {type : TypeText}
    (finished : finish ⟨outer, .expected meant⟩ text = .ok type) (other : TypeText) :
    finish ⟨others, .named variance name⟩ text ≠ .ok other := by
  have still : Still ⟨outer, .expected meant⟩ := fun _ => rfl
  have otherStill : Still ⟨others, .named variance name⟩ := fun _ => rfl
  rw [← still.finish_skipBlank] at finished
  rw [← otherStill.finish_skipBlank]
  cases begins : skipBlank text with
  | nil =>
    have ends : type? ⟨outer, .expected meant⟩ = none := type?_of_unfinished rfl
    simp [begins, finish, ends] at finished
  | cons c rest =>
    have seen := isBlank_head_skipBlank begins
    cases isChar : isNameChar c with
    | false =>
      have refused : next? ⟨outer, .expected meant⟩ c = none := by
        rw [next?_of_visible seen]
        simp [take?, isChar]
      simp [begins, finish, refused] at finished
    | true =>
      have noMark : ∀ mark ∈ ['<', '>', ',', '?', '*'], c ≠ mark :=
        fun mark listed => ne_mark_of_isNameChar isChar listed
      have refused : next? ⟨others, .named variance name⟩ c = none := by
        rw [next?_of_visible seen]
        cases others <;> simp [take?, endName?, endType?, close?, noMark]
      simp [finish, refused]

/-- A space behind a word makes a difference to all that follows. -/
theorem finish_pause_ne_ok {variance : Variance} {name text : List Char} {space : Bool}
    {type : TypeText} (inName : stage.phase = .name true variance name)
    (isWord : (word? name).isSome = true)
    (finished : (stage.pause (!space)).finish text = .ok type) (other : TypeText) :
    (stage.pause space).finish text ≠ .ok other := by
  obtain ⟨outer, phase⟩ := stage
  cases inName
  obtain ⟨meant, isWord⟩ := Option.isSome_iff_exists.mp isWord
  have spaced : pause true ⟨outer, .name true variance name⟩ = ⟨outer, .expected meant⟩ := by
    simp [pause, Phase.behindName, isWord]
  have apart : pause false ⟨outer, .name true variance name⟩ = ⟨outer, .named variance name⟩ := rfl
  cases space with
  | false =>
    rw [Bool.not_false, spaced] at finished
    rw [apart]
    exact finish_named_ne_ok finished other
  | true =>
    rw [Bool.not_true, apart] at finished
    rw [spaced]
    exact fun returned => finish_named_ne_ok returned type finished

/-- A text ends in the opening of an argument, but for white space. -/
def Opens (before : List Char) : Prop :=
  ∃ head mark gap, before = head ++ mark :: gap ∧ (mark = '<' ∨ mark = ',') ∧
    ∀ c ∈ gap, isBlank c = true

theorem opens_mark (before : List Char) {mark : Char} (opening : mark = '<' ∨ mark = ',') :
    Opens (before ++ [mark]) :=
  ⟨before, mark, [], rfl, opening, nofun⟩

theorem Opens.blank {before : List Char} (opens : Opens before) {c : Char}
    (blank : isBlank c = true) : Opens (before ++ [c]) := by
  obtain ⟨head, mark, gap, rfl, opening, blanks⟩ := opens
  refine ⟨head, mark, gap ++ [c], by simp, opening, ?_⟩
  intro d listed
  rcases List.mem_append.mp listed with inside | last
  · exact blanks d inside
  · exact List.mem_singleton.mp last ▸ blank

/-- What stands in front of a stage: the opening of an argument, or the name that is being read. -/
def Follows (before : List Char) (stage : Stage) : Prop :=
  match stage.phase with
  | .argument _ => Opens before
  | .name first _ name => name ≠ [] ∧ (∀ c ∈ name, isNameChar c = true) ∧
      ∃ earlier, before = earlier ++ name ∧ (first = true → Opens earlier)
  | _ => True

/-- The stage behind one character more, which is in front of an argument if the character opens one. -/
structure Leads (before : List Char) (c : Char) (next : Stage) : Prop where
  follows : Follows (before ++ [c]) next
  opens : c = '<' ∨ c = ',' → ∃ frame, next.phase = .argument frame

theorem leads_of_close? {before : List Char} {outer : List Frame} {arg : TypeTextArg} {c : Char}
    {next : Stage} (goes : close? outer arg c = some next) : Leads before c next := by
  unfold close? at goes
  split at goes
  · cases goes
  · split at goes
    next comma =>
      cases goes
      exact ⟨opens_mark before (Or.inr comma), fun _ => ⟨_, rfl⟩⟩
    · split at goes
      next bracket =>
        cases goes
        exact ⟨trivial, by simp [bracket]⟩
      · cases goes

theorem leads_of_endType? {before : List Char} {outer : List Frame} {variance : Variance}
    {name : List Char} {args : List TypeTextArg} {c : Char} {next : Stage}
    (goes : endType? outer variance name args c = some next) : Leads before c next := by
  unfold endType? at goes
  split at goes
  next mark =>
    cases goes
    exact ⟨trivial, by simp [mark]⟩
  · exact leads_of_close? goes

theorem leads_of_endName? {before : List Char} {outer : List Frame} {variance : Variance}
    {name : List Char} {c : Char} {next : Stage} (goes : endName? outer variance name c = some next) :
    Leads before c next := by
  unfold endName? at goes
  split at goes
  next bracket =>
    cases goes
    exact ⟨opens_mark before (Or.inl bracket), fun _ => ⟨_, rfl⟩⟩
  · exact leads_of_endType? goes

theorem not_opening_of_isNameChar {c : Char} (isChar : isNameChar c = true) :
    ¬ (c = '<' ∨ c = ',') := by
  rintro (opens | separates)
  · exact ne_mark_of_isNameChar isChar (by simp) opens
  · exact ne_mark_of_isNameChar isChar (by simp) separates

theorem Follows.leads_of_take? {before : List Char} (follows : Follows before stage) {c : Char}
    {next : Stage} (goes : stage.take? c = some next) : Leads before c next := by
  rcases stage with ⟨outer, phase⟩
  cases phase with
  | argument frame =>
    simp only [take?] at goes
    split at goes
    next star =>
      cases goes
      exact ⟨trivial, by simp [star]⟩
    · obtain ⟨isChar, same⟩ := Option.ite_none_right_eq_some.mp goes
      cases same
      refine ⟨?_, fun opening => absurd opening (not_opening_of_isNameChar isChar)⟩
      exact ⟨List.cons_ne_nil _ _, by simpa using isChar, before, rfl, fun _ => follows⟩
  | starred frame =>
    simp only [take?] at goes
    exact leads_of_close? goes
  | expected variance =>
    obtain ⟨isChar, same⟩ := Option.ite_none_right_eq_some.mp goes
    cases same
    refine ⟨?_, fun opening => absurd opening (not_opening_of_isNameChar isChar)⟩
    exact ⟨List.cons_ne_nil _ _, by simpa using isChar, before, rfl,
      fun isFirst => absurd isFirst Bool.false_ne_true⟩
  | name first variance name =>
    simp only [take?] at goes
    split at goes
    next isChar =>
      cases goes
      obtain ⟨-, chars, earlier, rfl, opens⟩ := follows
      refine ⟨?_, fun opening => absurd opening (not_opening_of_isNameChar isChar)⟩
      refine ⟨by simp, ?_, earlier, by simp, opens⟩
      intro d listed
      rcases List.mem_append.mp listed with inside | last
      · exact chars d inside
      · exact List.mem_singleton.mp last ▸ isChar
    · exact leads_of_endName? goes
  | named variance name =>
    simp only [take?] at goes
    exact leads_of_endName? goes
  | bracketed variance name args =>
    simp only [take?] at goes
    exact leads_of_endType? goes
  | complete variance type =>
    simp only [take?] at goes
    exact leads_of_close? goes

theorem Follows.leads_of_blank {before : List Char} (follows : Follows before stage) {c : Char}
    (blank : isBlank c = true) (space : Bool) : Leads before c (stage.pause space) := by
  constructor
  · rcases stage with ⟨outer, phase⟩
    cases phase with
    | argument frame => exact Opens.blank follows blank
    | name first variance name =>
      simp only [Follows, pause, Phase.behindName]
      cases if first && space then word? name else none <;> trivial
    | _ => trivial
  · have marks : isBlank '<' = false ∧ isBlank ',' = false := by decide
    rintro (rfl | rfl)
    · rw [marks.1] at blank
      cases blank
    · rw [marks.2] at blank
      cases blank

theorem Follows.leads {before : List Char} (follows : Follows before stage) {c : Char} {next : Stage}
    (goes : stage.next? c = some next) : Leads before c next := by
  cases blank : isBlank c with
  | true =>
    rw [next?_of_blank blank] at goes
    cases goes
    exact follows.leads_of_blank blank _
  | false =>
    rw [next?_of_visible blank] at goes
    exact follows.leads_of_take? goes

theorem Follows.run {before more : List Char} (follows : Follows before stage) {last : Stage}
    (went : stage.run? more = some last) : Follows (before ++ more) last := by
  induction more generalizing stage before with
  | nil =>
    cases went
    rwa [List.append_nil]
  | cons c more inductionHypothesis =>
    rw [run?_cons] at went
    obtain ⟨next, goes, went⟩ := Option.bind_eq_some_iff.mp went
    rw [List.append_cons]
    exact inductionHypothesis (follows.leads goes).follows went

theorem follows_start {before : List Char} {last : Stage} (went : start.run? before = some last) :
    Follows before last := by
  have empty : Follows [] start := trivial
  exact empty.run went

theorem word?_isSome_iff {word : List Char} :
    (word? word).isSome = true ↔ word = ['o', 'u', 't'] ∨ word = ['i', 'n'] := by
  rw [← Option.ne_none_iff_isSome, ne_eq, word?_eq_none_iff, not_and_or, not_not, not_not]

theorem run?_word {outer : List Frame} {frame : Frame} {word : List Char}
    (isWord : word = ['o', 'u', 't'] ∨ word = ['i', 'n']) :
    run? ⟨outer, .argument frame⟩ word = some ⟨frame :: outer, .name true .invariant word⟩ := by
  have seen {c : Char} (letter : c ∈ ['o', 'u', 't', 'i', 'n']) : isBlank c = false :=
    isBlank_of_isNameChar (isNameChar_of_word letter)
  rcases isWord with rfl | rfl
  · simp [run?, next?, take?, isNameChar_of_word, seen]
  · simp [run?, next?, take?, isNameChar_of_word, seen]

/-- A stage is in a word that may be a variance if the text in front of it ends in one. -/
theorem endsInWord_iff {before : List Char} {last : Stage} (went : start.run? before = some last) :
    EndsInWord before ↔
      ∃ variance name, last.phase = .name true variance name ∧ (word? name).isSome = true := by
  constructor
  · rintro ⟨head, mark, gap, word, rfl, opening, blank, isWord⟩
    rw [run?_append] at went
    obtain ⟨first, begun, went⟩ := Option.bind_eq_some_iff.mp went
    rw [run?_cons] at went
    obtain ⟨next, goes, went⟩ := Option.bind_eq_some_iff.mp went
    obtain ⟨frame, atArgument⟩ := ((follows_start begun).leads goes).opens opening
    obtain ⟨outer, phase⟩ := next
    cases atArgument
    have still : Still ⟨outer, .argument frame⟩ := fun _ => rfl
    rw [run?_append, still.run?_blank blank, Option.bind_some, run?_word isWord] at went
    cases went
    exact ⟨.invariant, word, rfl, word?_isSome_iff.mpr isWord⟩
  · rintro ⟨variance, name, inName, isWord⟩
    have follows := follows_start went
    unfold Follows at follows
    rw [inName] at follows
    obtain ⟨-, -, earlier, rfl, opens⟩ := follows
    obtain ⟨head, mark, gap, rfl, opening, blank⟩ := opens rfl
    exact ⟨head, mark, gap, name, by simp, opening, blank, word?_isSome_iff.mp isWord⟩

theorem not_isNameChar_of_gap {before gap after : List Char} {last : Stage}
    (went : start.run? before = some last) (blank : ∀ c ∈ gap, isBlank c = true)
    (between : gap = [] → ¬ SplitsName before after) (first : Bool) (variance : Variance)
    (name : List Char) (inName : last.phase = .name first variance name) :
    ∀ c ∈ (gap ++ after).head?, isNameChar c = false := by
  intro c here
  cases gap with
  | cons d gap =>
    obtain rfl : d = c := by simpa using here
    exact not_isNameChar_of_isBlank (blank d (List.mem_cons_self ..))
  | nil =>
    have follows := follows_start went
    unfold Follows at follows
    rw [inName] at follows
    obtain ⟨nonempty, chars, earlier, rfl, -⟩ := follows
    have lastOne : (earlier ++ name).getLast? = some (name.getLast nonempty) := by
      rw [List.getLast?_append_of_ne_nil _ nonempty, List.getLast?_eq_getLast_of_ne_nil nonempty]
    rw [← Bool.not_eq_true]
    intro isChar
    exact between rfl ⟨⟨_, lastOne, chars _ (List.getLast_mem nonempty)⟩, c, here, isChar⟩

end Stage

/-- Other white space in front of a text begins with a space just as what it stands for, wherever that
makes a variance of a word. -/
def KeepsSpace (before now other : List Char) : Prop :=
  EndsInWord before → (now.head? = some ' ' ↔ other.head? = some ' ')

/-- White space may be added to a type anywhere but inside a name, and exchanged: the type stays the same
as long as a space follows the words of a variance just as before, and is no type any more if not. -/
theorem respaced {before gap other after : List Char} {type : TypeText}
    (accepted : read (before ++ (gap ++ after)) = .ok type)
    (blank : ∀ c ∈ gap, isBlank c = true) (otherBlank : ∀ c ∈ other, isBlank c = true)
    (nonempty : other ≠ []) (between : gap = [] → ¬ SplitsName before after) :
    (KeepsSpace before (gap ++ after) other → read (before ++ (other ++ after)) = .ok type) ∧
      (¬ KeepsSpace before (gap ++ after) other →
        ∃ fault, read (before ++ (other ++ after)) = .error fault) := by
  have finished := read_eq_ok_iff.mp accepted
  obtain ⟨last, went⟩ := Stage.exists_run_of_finish finished
  rw [Stage.finish_append went] at finished
  have behind := Stage.finish_append went (other ++ after)
  rw [Stage.finish_exchange blank otherBlank nonempty] at behind
  have ends := Stage.not_isNameChar_of_gap went blank between
  obtain ⟨space, isSpace⟩ : ∃ space, (other.head? == some ' ') = space := ⟨_, rfl⟩
  rw [isSpace] at behind
  have sameSpace : other.head? = some ' ' ↔ space = true := by
    rw [← isSpace, beq_iff_eq]
  constructor
  · intro keeps
    rw [read_eq_ok_iff, behind, ← finished]
    apply Stage.finish_pause last ends
    intro variance name inName isWord
    rw [← sameSpace]
    exact keeps ((Stage.endsInWord_iff went).mpr ⟨variance, name, inName, isWord⟩)
  · intro changes
    obtain ⟨word, differs⟩ := Classical.not_imp.mp changes
    obtain ⟨variance, name, inName, isWord⟩ := (Stage.endsInWord_iff went).mp word
    have asBefore : (last.pause (!space)).finish (gap ++ after) = .ok type := by
      rw [← finished]
      apply Stage.finish_pause last ends
      intro _ _ _ _
      rw [sameSpace, not_iff] at differs
      rw [Bool.not_eq_true', ← Bool.not_eq_true, ← differs, not_not]
    cases result : read (before ++ (other ++ after)) with
    | error fault => exact ⟨fault, rfl⟩
    | ok found =>
      rw [read_eq_ok_iff, behind] at result
      exact absurd result (Stage.finish_pause_ne_ok inName isWord asBefore found)

theorem respaced_map : ∃ type, read "k.Map<out T,*>?".toList = .ok type ∧
    read "k.Map<out \t\u3000T,*>?".toList = .ok type ∧
    ∃ fault, read "k.Map<out\t T,*>?".toList = .error fault := by
  obtain ⟨type, accepted, -⟩ : ∃ type, read "k.Map<out T,*>?".toList = .ok type ∧ True := by
    apply exists_eq_ok
    decide +kernel
  have blank (gap : List Char) (only : gap.all isBlank = true) : ∀ c ∈ gap, isBlank c = true :=
    List.all_eq_true.mp only
  have spaceFirst := @respaced "k.Map<out".toList [' '] " \t\u3000".toList "T,*>?".toList type
    accepted (blank _ (by decide)) (blank _ (by decide)) (by decide) nofun
  have tabFirst := @respaced "k.Map<out".toList [' '] "\t ".toList "T,*>?".toList type
    accepted (blank _ (by decide)) (blank _ (by decide)) (by decide) nofun
  refine ⟨type, accepted, spaceFirst.1 fun _ => by decide, tabFirst.2 fun keeps => ?_⟩
  have word : EndsInWord "k.Map<out".toList :=
    ⟨"k.Map".toList, '<', [], "out".toList, rfl, Or.inl rfl, nofun, Or.inl rfl⟩
  exact absurd (keeps word) (by decide)

/-- A tab between the word of a variance and a type is not taken for white space, and a space behind a
type with the name of such a word is not taken for white space either. -/
theorem spacing_of_words_counts :
    ((read "Box<out T>".toList).isOk = true ∧ (read "Box<out\tT>".toList).isOk = false) ∧
      (read "Box<out>".toList).isOk = true ∧ (read "Box<out >".toList).isOk = false := by
  decide +kernel

end Relocation.TypeText
