import Relocation.Proofs.Manifest.TypeText
set_option autoImplicit false

/-!
Types read character by character.

After each character the reading has come to a stage: some types have their brackets open, and inside
the innermost one something has been read or is expected. A stage either goes on with a character or
refuses it, and gives a type or not if the text ends there. The first word of an argument is a name as
long as no space follows it, so nothing has to be looked at ahead.
-/

namespace Relocation.TypeText

open Text

/-- A type whose brackets are open: what is in front of them, and the arguments before the one that is
being read. -/
structure Frame where
  variance : Variance
  name : List Char
  args : List TypeTextArg

inductive Phase where
  /-- Before an argument of a type. -/
  | argument (frame : Frame)
  | starred (frame : Frame)
  /-- Before the name of a type. -/
  | expected (variance : Variance)
  /-- In a name. The first word of an argument may turn out to be a variance. -/
  | name (first : Bool) (variance : Variance) (name : List Char)
  /-- Behind a name, where brackets may open. -/
  | named (variance : Variance) (name : List Char)
  | bracketed (variance : Variance) (name : List Char) (args : List TypeTextArg)
  /-- Behind a type to which nothing more belongs. -/
  | complete (variance : Variance) (type : TypeText)

/-- The types around what is being read, innermost first, and how far it has come. -/
structure Stage where
  outer : List Frame
  phase : Phase

def word? (name : List Char) : Option Variance :=
  if name = ['o', 'u', 't'] then some .out
  else if name = ['i', 'n'] then some .inward
  else none

theorem word?_eq_some_iff {name : List Char} {variance : Variance} :
    word? name = some variance ↔
      (name = ['o', 'u', 't'] ∧ variance = .out) ∨ (name = ['i', 'n'] ∧ variance = .inward) := by
  unfold word?
  split
  next out => simp [out, eq_comm]
  next notOut =>
    split
    next inward => simp [inward, eq_comm]
    next notIn => simp [notOut, notIn]

theorem word?_eq_none_iff {name : List Char} :
    word? name = none ↔ name ≠ ['o', 'u', 't'] ∧ name ≠ ['i', 'n'] := by
  unfold word?
  split
  next out => simp [out]
  next notOut =>
    split
    next inward => simp [inward]
    next notIn => simp [notOut, notIn]

theorem ne_nil_of_word? {name : List Char} {variance : Variance}
    (word : word? name = some variance) : name ≠ [] := by
  rintro rfl
  cases word

namespace Phase

def type? : Phase → Option TypeText
  | .name _ _ read | .named _ read => some (.node (String.ofList read) [] false)
  | .bracketed _ read args => some (.node (String.ofList read) args false)
  | .complete _ type => some type
  | .argument _ | .starred _ | .expected _ => none

def behindName (space : Bool) (variance : Variance) (name : List Char) : Phase :=
  match if space then word? name else none with
  | some variance => .expected variance
  | none => .named variance name

end Phase

namespace Stage

def close? (outer : List Frame) (arg : TypeTextArg) (c : Char) : Option Stage :=
  match outer with
  | [] => none
  | frame :: outer =>
    if c = ',' then some ⟨outer, .argument { frame with args := frame.args ++ [arg] }⟩
    else if c = '>' then some ⟨outer, .bracketed frame.variance frame.name (frame.args ++ [arg])⟩
    else none

def endType? (outer : List Frame) (variance : Variance) (name : List Char)
    (args : List TypeTextArg) (c : Char) : Option Stage :=
  if c = '?' then some ⟨outer, .complete variance (.node (String.ofList name) args true)⟩
  else close? outer (.type variance (.node (String.ofList name) args false)) c

def endName? (outer : List Frame) (variance : Variance) (name : List Char) (c : Char) :
    Option Stage :=
  if c = '<' then some ⟨outer, .argument ⟨variance, name, []⟩⟩
  else endType? outer variance name [] c

def pause (space : Bool) : Stage → Stage
  | ⟨outer, .name first variance name⟩ => ⟨outer, .behindName (first && space) variance name⟩
  | stage => stage

def take? : Stage → Char → Option Stage
  | ⟨outer, .argument frame⟩, c =>
    if c = '*' then some ⟨outer, .starred frame⟩
    else if isNameChar c then some ⟨frame :: outer, .name true .invariant [c]⟩
    else none
  | ⟨outer, .starred frame⟩, c => close? (frame :: outer) .star c
  | ⟨outer, .expected variance⟩, c =>
    if isNameChar c then some ⟨outer, .name false variance [c]⟩ else none
  | ⟨outer, .name first variance name⟩, c =>
    if isNameChar c then some ⟨outer, .name first variance (name ++ [c])⟩
    else endName? outer variance name c
  | ⟨outer, .named variance name⟩, c => endName? outer variance name c
  | ⟨outer, .bracketed variance name args⟩, c => endType? outer variance name args c
  | ⟨outer, .complete variance type⟩, c => close? outer (.type variance type) c

def next? (stage : Stage) (c : Char) : Option Stage :=
  if isBlank c then some (stage.pause (c == ' ')) else stage.take? c

def type? (stage : Stage) : Option TypeText :=
  match stage.outer with
  | [] => stage.phase.type?
  | _ :: _ => none

/-- Reads the rest of a text. What is refused is given back with all that follows. -/
def finish (stage : Stage) : List Char → Except (List Char) TypeText
  | [] => match stage.type? with
    | some type => .ok type
    | none => .error []
  | c :: rest => match stage.next? c with
    | some next => finish next rest
    | none => .error (c :: rest)

def start : Stage := ⟨[], .expected .invariant⟩

theorem type?_of_unfinished {outer : List Frame} {phase : Phase} (unfinished : phase.type? = none) :
    type? ⟨outer, phase⟩ = none := by
  cases outer with
  | nil => exact unfinished
  | cons frame outer => rfl

/-- White space makes no difference at a stage. -/
def Still (stage : Stage) : Prop := ∀ space, stage.pause space = stage

variable {stage : Stage}

theorem still_pause (stage : Stage) (space : Bool) : (stage.pause space).Still := by
  intro again
  rcases stage with ⟨outer, phase⟩
  cases phase with
  | name first variance name =>
    simp only [pause, Phase.behindName]
    cases if first && space then word? name else none <;> rfl
  | _ => rfl

theorem next?_of_blank {c : Char} (blank : isBlank c = true) :
    stage.next? c = some (stage.pause (c == ' ')) :=
  if_pos blank

theorem next?_of_visible {c : Char} (seen : isBlank c = false) : stage.next? c = stage.take? c := by
  simp [next?, seen]

theorem Still.finish_skipBlank (still : stage.Still) (text : List Char) :
    stage.finish (skipBlank text) = stage.finish text := by
  induction text with
  | nil => rfl
  | cons c rest inductionHypothesis =>
    cases blank : isBlank c with
    | false => rw [skipBlank, List.dropWhile_cons_of_neg (by simp [blank])]
    | true =>
      rw [skipBlank, List.dropWhile_cons_of_pos blank, ← skipBlank, inductionHypothesis, finish,
        next?_of_blank blank, still]

theorem isBlank_head_skipBlank {text rest : List Char} {c : Char}
    (first : skipBlank text = c :: rest) : isBlank c = false := by
  have head := List.head?_dropWhile_not isBlank text
  rw [← skipBlank, first] at head
  simpa using head

theorem finish_cons {c : Char} {next : Stage} (rest : List Char) (goes : stage.next? c = some next) :
    stage.finish (c :: rest) = next.finish rest := by
  simp [finish, goes]

theorem Still.finish_eat (still : stage.Still) {token : Char} {next : Stage} {text rest : List Char}
    (eaten : eat? token text = some rest) (takes : stage.take? token = some next) :
    stage.finish text = next.finish rest := by
  rw [eat?_eq] at eaten
  split at eaten
  next c others start =>
    split at eaten
    next same =>
      cases eaten
      subst same
      rw [← still.finish_skipBlank, start]
      exact finish_cons _ ((next?_of_visible (isBlank_head_skipBlank start)).trans takes)
    · cases eaten
  · cases eaten

theorem finish_congr {one other : Stage} {text : List Char} (ends : one.type? = other.type?)
    (goes : ∀ c ∈ text.head?, one.next? c = other.next? c) : one.finish text = other.finish text := by
  cases text with
  | nil => simp [finish, ends]
  | cons c rest => simp [finish, goes c rfl]

theorem Still.finish_eq {one other : Stage} (still : one.Still)
    {text : List Char} (ends : one.type? = other.type?)
    (takes : ∀ c ∈ (skipBlank text).head?, one.take? c = other.take? c) :
    one.finish text = other.finish (skipBlank text) := by
  rw [← still.finish_skipBlank]
  apply Stage.finish_congr ends
  intro c first
  cases start : skipBlank text with
  | nil => simp [start] at first
  | cons head rest =>
    obtain rfl : head = c := by simpa [start] using first
    have seen := isBlank_head_skipBlank start
    rw [next?_of_visible seen, next?_of_visible seen]
    exact takes head (by simp [start])

theorem Still.finish_eq_error (still : stage.Still) {text : List Char} (unfinished : stage.type? = none)
    (refuses : ∀ c ∈ (skipBlank text).head?, stage.take? c = none) :
    stage.finish text = .error (skipBlank text) := by
  rw [← still.finish_skipBlank]
  cases start : skipBlank text with
  | nil => simp [finish, unfinished]
  | cons c rest =>
    have refused : stage.next? c = none := by
      rw [next?_of_visible (isBlank_head_skipBlank start)]
      exact refuses c (by simp [start])
    simp [finish, refused]

theorem head?_ne_of_eat? {token c : Char} {text : List Char} (none : eat? token text = none)
    (first : c ∈ (skipBlank text).head?) : c ≠ token := by
  rintro rfl
  cases start : skipBlank text with
  | nil => simp [start] at first
  | cons head rest =>
    obtain rfl : head = c := by simpa [start] using first
    rw [eat?_of_head start] at none
    cases none

theorem take?_name_of_isNameChar (outer : List Frame) (first : Bool) (variance : Variance)
    (name : List Char) {c : Char} (isChar : isNameChar c = true) :
    take? ⟨outer, .name first variance name⟩ c =
      some ⟨outer, .name first variance (name ++ [c])⟩ :=
  if_pos isChar

theorem isBlank_of_isNameChar {c : Char} (isChar : isNameChar c = true) : isBlank c = false := by
  cases blank : isBlank c with
  | false => rfl
  | true =>
    rw [not_isNameChar_of_isBlank blank] at isChar
    cases isChar

theorem finish_name (outer : List Frame) (first : Bool) (variance : Variance) (name : List Char)
    {more : List Char} (chars : ∀ c ∈ more, isNameChar c = true) (rest : List Char) :
    finish ⟨outer, .name first variance name⟩ (more ++ rest) =
      finish ⟨outer, .name first variance (name ++ more)⟩ rest := by
  induction more generalizing name with
  | nil => rw [List.append_nil, List.nil_append]
  | cons c more inductionHypothesis =>
    obtain ⟨isChar, others⟩ := List.forall_mem_cons.mp chars
    have goes := (next?_of_visible (isBlank_of_isNameChar isChar)).trans
      (take?_name_of_isNameChar outer first variance name isChar)
    rw [List.cons_append, finish_cons _ goes, inductionHypothesis _ others, List.append_assoc,
      List.singleton_append]

/-- A name ends where it is no word of a variance with a space behind it. -/
theorem finish_named (outer : List Frame) (first : Bool) (variance : Variance) (name : List Char)
    {rest : List Char} (ends : ∀ c ∈ rest.head?, isNameChar c = false)
    (noWord : first = true → rest.head? = some ' ' → word? name = none) :
    finish ⟨outer, .name first variance name⟩ rest = finish ⟨outer, .named variance name⟩ rest := by
  apply finish_congr
  · rfl
  · intro c here
    cases blank : isBlank c with
    | false =>
      rw [next?_of_visible blank, next?_of_visible blank]
      simp [take?, ends c here]
    | true =>
      rw [next?_of_blank blank, next?_of_blank blank]
      have none : (if first && c == ' ' then word? name else none) = none := by
        split
        next word =>
          simp only [Bool.and_eq_true, beq_iff_eq] at word
          exact noWord word.1 (word.2 ▸ here)
        · rfl
      simp only [pause, Phase.behindName, none]

theorem Still.finish_toName (still : stage.Still) {outer : List Frame} {first : Bool}
    {variance : Variance} (takes : ∀ c, isNameChar c = true →
      stage.take? c = some ⟨outer, .name first variance [c]⟩)
    {text : List Char} (some : (skipBlank text).takeWhile isNameChar ≠ []) :
    stage.finish text =
      finish ⟨outer, .name first variance ((skipBlank text).takeWhile isNameChar)⟩
        ((skipBlank text).dropWhile isNameChar) := by
  rw [← still.finish_skipBlank]
  cases begins : skipBlank text with
  | nil => simp [begins] at some
  | cons c rest =>
    cases isChar : isNameChar c with
    | false => simp [begins, isChar] at some
    | true =>
      have goes := (next?_of_visible (isBlank_head_skipBlank begins)).trans (takes c isChar)
      have chars : ∀ c ∈ rest.takeWhile isNameChar, isNameChar c = true :=
        fun c listed => List.mem_takeWhile_imp listed
      have further := finish_name outer first variance [c] chars (rest.dropWhile isNameChar)
      rw [List.takeWhile_append_dropWhile] at further
      rw [finish_cons _ goes, further, List.takeWhile_cons_of_pos isChar,
        List.dropWhile_cons_of_pos isChar, List.singleton_append]

theorem not_isNameChar_head_dropWhile (text : List Char) :
    ∀ c ∈ (text.dropWhile isNameChar).head?, isNameChar c = false := by
  intro c first
  have head := List.head?_dropWhile_not isNameChar text
  rw [Option.mem_def.mp first] at head
  simpa using head

theorem not_isNameChar_head {text : List Char} (empty : text.takeWhile isNameChar = []) :
    ∀ c ∈ text.head?, isNameChar c = false := by
  cases text with
  | nil => exact nofun
  | cons head rest =>
    intro c first
    cases first
    simpa [List.takeWhile_cons] using empty

theorem finish_expected (outer : List Frame) (variance : Variance) (text : List Char) :
    finish ⟨outer, .expected variance⟩ text =
      if ((skipBlank text).takeWhile isNameChar).isEmpty then .error (skipBlank text)
      else finish ⟨outer, .named variance ((skipBlank text).takeWhile isNameChar)⟩
        ((skipBlank text).dropWhile isNameChar) := by
  have still : Still ⟨outer, .expected variance⟩ := fun _ => rfl
  split
  next empty =>
    apply still.finish_eq_error (type?_of_unfinished rfl)
    intro c first
    simp [take?, not_isNameChar_head (List.isEmpty_iff.mp empty) c first]
  next some =>
    rw [still.finish_toName (fun c isChar => if_pos isChar) (by simpa using some)]
    exact finish_named _ _ _ _ (not_isNameChar_head_dropWhile _) nofun

def run? (stage : Stage) (text : List Char) : Option Stage := text.foldlM next? stage

theorem run?_append (one other : List Char) :
    stage.run? (one ++ other) = (stage.run? one).bind fun next => next.run? other :=
  List.foldlM_append ..

theorem run?_cons (c : Char) (rest : List Char) :
    stage.run? (c :: rest) = (stage.next? c).bind fun next => next.run? rest :=
  List.foldlM_cons ..

theorem finish_append {last : Stage} {before : List Char} (went : stage.run? before = some last)
    (after : List Char) : stage.finish (before ++ after) = last.finish after := by
  induction before generalizing stage with
  | nil =>
    cases went
    rfl
  | cons c before inductionHypothesis =>
    rw [run?_cons] at went
    obtain ⟨next, goes, went⟩ := Option.bind_eq_some_iff.mp went
    rw [List.cons_append, finish_cons _ goes, inductionHypothesis went]

theorem exists_run_of_finish {before after : List Char} {type : TypeText}
    (finished : stage.finish (before ++ after) = .ok type) : ∃ last, stage.run? before = some last := by
  induction before generalizing stage with
  | nil => exact ⟨stage, rfl⟩
  | cons c before inductionHypothesis =>
    rw [List.cons_append, finish] at finished
    rw [run?_cons]
    cases goes : stage.next? c with
    | none =>
      rw [goes] at finished
      cases finished
    | some next =>
      rw [goes] at finished
      exact inductionHypothesis finished

/-- What is given back is refused at the stage behind all that is in front of it. -/
theorem exists_refusal {text rest : List Char} (refused : stage.finish text = .error rest) :
    ∃ before last, text = before ++ rest ∧ stage.run? before = some last ∧
      ∀ c ∈ rest.head?, last.next? c = none := by
  induction text generalizing stage with
  | nil =>
    unfold finish at refused
    split at refused
    · cases refused
    · cases refused
      exact ⟨[], stage, rfl, rfl, nofun⟩
  | cons c text inductionHypothesis =>
    rw [finish] at refused
    cases goes : stage.next? c with
    | none =>
      rw [goes] at refused
      cases refused
      refine ⟨[], stage, rfl, rfl, ?_⟩
      intro first same
      cases same
      exact goes
    | some next =>
      rw [goes] at refused
      obtain ⟨before, last, rfl, went, stuck⟩ := inductionHypothesis refused
      exact ⟨c :: before, last, rfl, by rw [run?_cons, goes]; exact went, stuck⟩

/-- A shortest text that makes a stage give a type. -/
def completion : Stage → List Char
  | ⟨outer, .argument _⟩ => 'T' :: List.replicate (outer.length + 1) '>'
  | ⟨outer, .starred _⟩ => List.replicate (outer.length + 1) '>'
  | ⟨outer, .expected _⟩ => 'T' :: List.replicate outer.length '>'
  | ⟨outer, _⟩ => List.replicate outer.length '>'

theorem exists_finish_closed (outer : List Frame) {phase : Phase}
    (finished : phase.type?.isSome = true) :
    ∃ type, finish ⟨outer, phase⟩ (List.replicate outer.length '>') = .ok type := by
  induction outer generalizing phase with
  | nil =>
    obtain ⟨type, found⟩ := Option.isSome_iff_exists.mp finished
    have ends : type? ⟨[], phase⟩ = some type := found
    exact ⟨type, by simp [finish, ends]⟩
  | cons frame outer inductionHypothesis =>
    have noChar : isNameChar '>' = false := not_isNameChar_of_mark (by simp)
    have goes : ∃ args, next? ⟨frame :: outer, phase⟩ '>' =
        some ⟨outer, .bracketed frame.variance frame.name args⟩ := by
      rw [next?_of_visible (by decide)]
      cases phase with
      | argument | starred | expected => cases finished
      | name first variance name => simp [take?, noChar, endName?, endType?, close?]
      | named | bracketed | complete => simp [take?, endName?, endType?, close?]
    obtain ⟨args, goes⟩ := goes
    rw [List.length_cons, List.replicate_succ, finish_cons _ goes]
    exact inductionHypothesis rfl

/-- Every stage leads to a type. -/
theorem exists_finish_completion (stage : Stage) :
    ∃ type, stage.finish stage.completion = .ok type := by
  have letter : isNameChar 'T' = true := by decide +kernel
  have seen : isBlank 'T' = false := by decide
  rcases stage with ⟨outer, phase⟩
  cases phase with
  | argument frame =>
    have goes : next? ⟨outer, .argument frame⟩ 'T' =
        some ⟨frame :: outer, .name true .invariant ['T']⟩ := by
      rw [next?_of_visible seen]
      simp [take?, letter]
    rw [completion, finish_cons _ goes]
    exact exists_finish_closed (frame :: outer) rfl
  | starred frame =>
    have goes : next? ⟨outer, .starred frame⟩ '>' =
        some ⟨outer, .bracketed frame.variance frame.name (frame.args ++ [.star])⟩ := by
      rw [next?_of_visible (by decide)]
      simp [take?, close?]
    rw [completion, List.replicate_succ, finish_cons _ goes]
    exact exists_finish_closed outer rfl
  | expected variance =>
    have goes : next? ⟨outer, .expected variance⟩ 'T' =
        some ⟨outer, .name false variance ['T']⟩ := by
      rw [next?_of_visible seen]
      simp [take?, letter]
    rw [completion, finish_cons _ goes]
    exact exists_finish_closed outer rfl
  | name | named | bracketed | complete => exact exists_finish_closed outer rfl

end Stage

end Relocation.TypeText
