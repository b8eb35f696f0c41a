import Mathlib.Data.List.DropRight
import Relocation.Proofs.Manifest.Spelling
import Relocation.Proofs.Manifest.Stages
set_option autoImplicit false

/-!
Reading by descent and by stages.

Both ways of reading are the same: they give the same types, and where the descent fails the stages
refuse to go on. The descent goes on with what is left of a text behind a part of a type, and so do the
stages from where they stand behind that part.
-/

namespace Relocation.TypeText

open Text

namespace Stage

theorem takeVariance_word {name : List Char} {variance : Variance}
    (word : word? name = some variance) (rest : List Char) :
    takeVariance (name ++ ' ' :: rest) = (variance, rest) := by
  rcases word?_eq_some_iff.mp word with ⟨rfl, rfl⟩ | ⟨rfl, rfl⟩
  · rfl
  · rfl

theorem takeVariance_noWord {name rest : List Char} (chars : ∀ c ∈ name, isNameChar c = true)
    (ends : ∀ c ∈ rest.head?, isNameChar c = false)
    (noWord : rest.head? = some ' ' → word? name = none) :
    takeVariance (name ++ rest) = (.invariant, name ++ rest) :=
  takeVariance_name chars ends fun space => word?_eq_none_iff.mp (noWord space)

theorem take?_argument_of_isNameChar (outer : List Frame) (frame : Frame) {c : Char}
    (isChar : isNameChar c = true) :
    take? ⟨outer, .argument frame⟩ c = some ⟨frame :: outer, .name true .invariant [c]⟩ := by
  have noStar : c ≠ '*' := ne_mark_of_isNameChar isChar (by simp)
  simp [take?, noStar, isChar]

/-- Where an argument other than a star is expected, its variance is taken first. -/
theorem finish_argument (outer : List Frame) (frame : Frame) {text : List Char}
    (noStar : eat? '*' text = none) :
    finish ⟨outer, .argument frame⟩ text =
      finish ⟨frame :: outer, .expected (takeVariance (skipBlank text)).1⟩
        (takeVariance (skipBlank text)).2 := by
  have still : Still ⟨outer, .argument frame⟩ := fun _ => rfl
  have toName (some : (skipBlank text).takeWhile isNameChar ≠ []) :=
    still.finish_toName (fun c isChar => take?_argument_of_isNameChar outer frame isChar) some
  have all := List.takeWhile_append_dropWhile (p := isNameChar) (l := skipBlank text)
  have ends := not_isNameChar_head_dropWhile (skipBlank text)
  have chars : ∀ c ∈ (skipBlank text).takeWhile isNameChar, isNameChar c = true :=
    fun c listed => List.mem_takeWhile_imp listed
  obtain ⟨name, named⟩ : ∃ name, (skipBlank text).takeWhile isNameChar = name := ⟨_, rfl⟩
  obtain ⟨rest, rested⟩ : ∃ rest, (skipBlank text).dropWhile isNameChar = rest := ⟨_, rfl⟩
  rw [named, rested] at toName all
  rw [named] at chars
  rw [rested] at ends
  cases word : if rest.head? = some ' ' then word? name else none with
  | some variance =>
    obtain ⟨space, isWord⟩ := Option.ite_none_right_eq_some.mp word
    obtain ⟨more, rfl⟩ : ∃ more, rest = ' ' :: more := by
      cases rest with
      | nil => cases space
      | cons c more => exact ⟨more, by simpa using space⟩
    have goes : next? ⟨frame :: outer, .name true .invariant name⟩ ' ' =
        some ⟨frame :: outer, .expected variance⟩ := by
      rw [next?_of_blank (by decide)]
      simp [pause, Phase.behindName, isWord]
    rw [toName (ne_nil_of_word? isWord), finish_cons _ goes, ← all, takeVariance_word isWord]
  | none =>
    have noWord : rest.head? = some ' ' → word? name = none := fun space => by
      rwa [if_pos space] at word
    have variance := takeVariance_noWord chars ends noWord
    rw [all] at variance
    have again : skipBlank (skipBlank text) = skipBlank text := List.dropWhile_idempotent ..
    rw [variance, finish_expected, again, named, rested]
    split
    next empty =>
      apply still.finish_eq_error (type?_of_unfinished rfl)
      intro c first
      have noChar := not_isNameChar_head (named.trans (List.isEmpty_iff.mp empty)) c first
      simp [take?, noChar, head?_ne_of_eat? noStar first]
    next some =>
      rw [toName (by simpa using some)]
      exact finish_named _ _ _ _ ends fun _ => noWord

/-- Goes on with what has been read by descent, or fails where that fails. -/
def resume {Item : Type} (read : Except Fault (Item × List Char))
    (next : Item → List Char → Except (List Char) TypeText) : Except (List Char) TypeText :=
  match read with
  | .ok (item, rest) => next item rest
  | .error fault => .error fault.rest

section Resume

variable {Item Other : Type} {read : Except Fault (Item × List Char)}

theorem resume_bind (further : Item × List Char → Except Fault (Other × List Char))
    (next : Other → List Char → Except (List Char) TypeText) :
    resume (read >>= further) next =
      resume read fun item rest => resume (further (item, rest)) next := by
  cases read <;> rfl

theorem resume_congr {one other : Item → List Char → Except (List Char) TypeText}
    (same : ∀ item rest, read = .ok (item, rest) → one item rest = other item rest) :
    resume read one = resume read other := by
  cases read with
  | error fault => rfl
  | ok result => exact same result.1 result.2 rfl

end Resume

theorem finish_readBrackets (steps : Nat) {outer : List Frame} {variance : Variance}
    {name text : List Char} (arguments : ∀ rest, eat? '<' text = some rest →
      finish ⟨outer, .argument ⟨variance, name, []⟩⟩ rest =
        resume (readArgs steps rest) fun args rest =>
          finish ⟨outer, .bracketed variance name args⟩ rest) :
    finish ⟨outer, .named variance name⟩ text =
      resume (readBrackets steps text) fun args rest =>
        finish ⟨outer, .bracketed variance name args⟩ rest := by
  have still : Still ⟨outer, .named variance name⟩ := fun _ => rfl
  unfold readBrackets
  cases eaten : eat? '<' text with
  | some rest =>
    have takes : take? ⟨outer, .named variance name⟩ '<' =
        some ⟨outer, .argument ⟨variance, name, []⟩⟩ := rfl
    rw [still.finish_eat eaten takes]
    exact arguments rest eaten
  | none =>
    have closed : Still ⟨outer, .bracketed variance name []⟩ := fun _ => rfl
    show _ = finish ⟨outer, .bracketed variance name []⟩ text
    rw [← closed.finish_skipBlank]
    apply still.finish_eq
    · rfl
    intro c first
    simp [take?, endName?, head?_ne_of_eat? eaten first]

/-- A question mark belongs to the type in front of it. -/
theorem finish_takeNullable (outer : List Frame) (variance : Variance) (name : List Char)
    (args : List TypeTextArg) (text : List Char) :
    finish ⟨outer, .bracketed variance name args⟩ text =
      finish ⟨outer, .complete variance (.node (String.ofList name) args (takeNullable text).1)⟩
        (takeNullable text).2 := by
  have still : Still ⟨outer, .bracketed variance name args⟩ := fun _ => rfl
  unfold takeNullable
  cases eaten : eat? '?' text with
  | some rest => exact still.finish_eat eaten rfl
  | none =>
    apply still.finish_eq
    · rfl
    intro c first
    simp [take?, endType?, head?_ne_of_eat? eaten first]

def behind (outer : List Frame) (frame : Frame) : TypeTextArg → Stage
  | .star => ⟨outer, .starred frame⟩
  | .type variance type => ⟨frame :: outer, .complete variance type⟩

theorem still_behind (outer : List Frame) (frame : Frame) (arg : TypeTextArg) :
    (behind outer frame arg).Still := by
  intro space
  cases arg <;> rfl

theorem type?_behind (outer : List Frame) (frame : Frame) (arg : TypeTextArg) :
    (behind outer frame arg).type? = none := by
  cases arg with
  | star => exact type?_of_unfinished rfl
  | type variance type => rfl

theorem take?_behind (outer : List Frame) (frame : Frame) (arg : TypeTextArg) (c : Char) :
    (behind outer frame arg).take? c = close? (frame :: outer) arg c := by
  cases arg <;> rfl

theorem suffix_of_eat? {token : Char} {text rest : List Char} (eaten : eat? token text = some rest) :
    token :: rest <:+ text := by
  rw [eat?_eq] at eaten
  split at eaten
  next c others start =>
    split at eaten
    next same =>
      cases eaten
      rw [← same, ← start]
      exact List.dropWhile_suffix _
    · cases eaten
  · cases eaten

theorem length_lt_of_eat? {token : Char} {text rest : List Char}
    (eaten : eat? token text = some rest) : rest.length < text.length :=
  (suffix_of_eat? eaten).length_le

theorem suffix_takeVariance (text : List Char) : (takeVariance (skipBlank text)).2 <:+ text :=
  List.IsSuffix.trans ⟨_, variancePrint_takeVariance (skipBlank text)⟩ (List.dropWhile_suffix _)

theorem suffix_takeNullable (text : List Char) : (takeNullable text).2 <:+ text := by
  unfold takeNullable
  cases eaten : eat? '?' text with
  | some rest => exact List.IsSuffix.trans (List.suffix_cons ..) (suffix_of_eat? eaten)
  | none => exact List.dropWhile_suffix _

mutual

theorem suffix_of_readType : ∀ {steps : Nat} {text rest : List Char} {type : TypeText},
    readType steps text = .ok (type, rest) → rest <:+ text
  | 0, _, _, _, returned => by
    unfold readType at returned
    cases returned
  | steps + 1, text, rest, type, returned => by
    rw [readType_succ] at returned
    split at returned
    · cases returned
    · obtain ⟨⟨args, behind⟩, brackets, done⟩ := bind_eq_ok.mp returned
      cases done
      have name : (skipBlank text).dropWhile isNameChar <:+ text :=
        (List.dropWhile_suffix _).trans (List.dropWhile_suffix _)
      refine (suffix_takeNullable behind).trans (List.IsSuffix.trans ?_ name)
      unfold readBrackets at brackets
      split at brackets
      next opened eaten =>
        have inside := (suffix_of_readArgs brackets).trans (List.suffix_cons '<' opened)
        exact inside.trans (suffix_of_eat? eaten)
      · cases brackets
        exact List.suffix_rfl

theorem suffix_of_readArgs : ∀ {steps : Nat} {text rest : List Char} {args : List TypeTextArg},
    readArgs steps text = .ok (args, rest) → rest <:+ text
  | 0, _, _, _, returned => by
    unfold readArgs at returned
    cases returned
  | steps + 1, text, rest, args, returned => by
    rw [readArgs_succ] at returned
    obtain ⟨⟨arg, behind⟩, first, others⟩ := bind_eq_ok.mp returned
    have here : behind <:+ text := by
      unfold readArg at first
      split at first
      next after eaten =>
        cases first
        exact List.IsSuffix.trans (List.suffix_cons ..) (suffix_of_eat? eaten)
      · obtain ⟨⟨type, after⟩, read, done⟩ := bind_eq_ok.mp first
        cases done
        exact (suffix_of_readType read).trans (suffix_takeVariance text)
    refine List.IsSuffix.trans ?_ here
    unfold readOthers at others
    split at others
    next after eaten =>
      obtain ⟨⟨more, last⟩, read, done⟩ := bind_eq_ok.mp others
      cases done
      have inside := (suffix_of_readArgs read).trans (List.suffix_cons ',' after)
      exact inside.trans (suffix_of_eat? eaten)
    · split at others
      next after eaten =>
        cases others
        exact List.IsSuffix.trans (List.suffix_cons ..) (suffix_of_eat? eaten)
      · cases others

end

theorem length_of_readArg {steps : Nat} {text rest : List Char} {arg : TypeTextArg}
    (returned : readArg steps text = .ok (arg, rest)) : rest.length ≤ text.length := by
  unfold readArg at returned
  split at returned
  next after eaten =>
    cases returned
    exact Nat.le_of_lt (length_lt_of_eat? eaten)
  · obtain ⟨⟨type, after⟩, read, done⟩ := bind_eq_ok.mp returned
    cases done
    exact ((suffix_of_readType read).trans (suffix_takeVariance text)).length_le

theorem finish_readArg (steps : Nat) {outer : List Frame} {frame : Frame} {text : List Char}
    (types : ∀ variance rest, rest.length ≤ text.length →
      finish ⟨frame :: outer, .expected variance⟩ rest =
        resume (readType steps rest) fun type rest =>
          finish ⟨frame :: outer, .complete variance type⟩ rest) :
    finish ⟨outer, .argument frame⟩ text =
      resume (readArg steps text) fun arg rest => finish (behind outer frame arg) rest := by
  have still : Still ⟨outer, .argument frame⟩ := fun _ => rfl
  unfold readArg
  cases eaten : eat? '*' text with
  | some rest => exact still.finish_eat eaten rfl
  | none =>
    rw [finish_argument outer frame eaten, types _ _ (suffix_takeVariance text).length_le]
    dsimp only
    rw [resume_bind]
    rfl

theorem finish_readOthers {outer : List Frame} {frame : Frame} {arg : TypeTextArg}
    {text : List Char} {steps : Nat} (arguments : ∀ rest, eat? ',' text = some rest →
      finish ⟨outer, .argument { frame with args := frame.args ++ [arg] }⟩ rest =
        resume (readArgs steps rest) fun args rest =>
          finish ⟨outer, .bracketed frame.variance frame.name (frame.args ++ [arg] ++ args)⟩ rest) :
    finish (behind outer frame arg) text =
      resume (readOthers steps arg text) fun args rest =>
        finish ⟨outer, .bracketed frame.variance frame.name (frame.args ++ args)⟩ rest := by
  have still := still_behind outer frame arg
  unfold readOthers
  cases comma : eat? ',' text with
  | some rest =>
    rw [still.finish_eat comma (take?_behind outer frame arg ','), arguments rest comma]
    dsimp only
    rw [resume_bind]
    apply resume_congr
    intro args after _
    rw [List.append_assoc]
    rfl
  | none =>
    cases bracket : eat? '>' text with
    | some rest => exact still.finish_eat bracket (take?_behind outer frame arg '>')
    | none =>
      apply still.finish_eq_error (type?_behind outer frame arg)
      intro c first
      simp [take?_behind, close?, head?_ne_of_eat? comma first, head?_ne_of_eat? bracket first]

mutual

theorem finish_readType : ∀ {steps : Nat} {text : List Char}, 2 * text.length + 1 ≤ steps →
    ∀ (outer : List Frame) (variance : Variance),
      finish ⟨outer, .expected variance⟩ text =
        resume (readType steps text) fun type rest =>
          finish ⟨outer, .complete variance type⟩ rest
  | 0, _, enough, _, _ => by omega
  | steps + 1, text, enough, outer, variance => by
    rw [finish_expected, readType_succ]
    split
    · rfl
    next some =>
      rw [resume_bind, finish_readBrackets steps]
      · apply resume_congr
        intro args rest _
        exact finish_takeNullable ..
      · intro rest eaten
        have name : ((skipBlank text).takeWhile isNameChar).length ≠ 0 := by simpa using some
        have whole := congrArg List.length
          (List.takeWhile_append_dropWhile (p := isNameChar) (l := skipBlank text))
        rw [List.length_append] at whole
        have inside := length_lt_of_eat? eaten
        have skipped : (skipBlank text).length ≤ text.length := (List.dropWhile_suffix _).length_le
        exact finish_readArgs (by omega) outer ⟨variance, _, []⟩

theorem finish_readArgs : ∀ {steps : Nat} {text : List Char}, 2 * text.length + 2 ≤ steps →
    ∀ (outer : List Frame) (frame : Frame),
      finish ⟨outer, .argument frame⟩ text =
        resume (readArgs steps text) fun args rest =>
          finish ⟨outer, .bracketed frame.variance frame.name (frame.args ++ args)⟩ rest
  | 0, _, enough, _, _ => by omega
  | steps + 1, text, enough, outer, frame => by
    rw [readArgs_succ, resume_bind, finish_readArg steps]
    · apply resume_congr
      intro arg rest read
      apply finish_readOthers
      intro after eaten
      have here := length_of_readArg read
      have further := length_lt_of_eat? eaten
      exact finish_readArgs (by omega) outer { frame with args := frame.args ++ [arg] }
    · intro variance rest shorter
      exact finish_readType (by omega) (frame :: outer) variance

end

/-- Reading by stages gives the type that reading by descent gives, and is refused where that fails. -/
theorem finish_start (text : List Char) :
    start.finish text = (read text).mapError Fault.rest := by
  have still (type : TypeText) : Still ⟨[], .complete .invariant type⟩ := fun _ => rfl
  rw [start, finish_readType (Nat.le_refl _), read]
  cases readType (2 * text.length + 1) text with
  | error fault => rfl
  | ok result =>
    obtain ⟨type, rest⟩ := result
    dsimp only [resume, bind, Except.bind]
    rw [← (still type).finish_skipBlank]
    cases begins : skipBlank rest with
    | nil => rfl
    | cons c others =>
      have refused : next? ⟨[], .complete .invariant type⟩ c = none :=
        next?_of_visible (isBlank_head_skipBlank begins)
      simp only [finish, refused]
      rfl

end Stage

theorem read_eq_ok_iff {text : List Char} {type : TypeText} :
    read text = .ok type ↔ Stage.start.finish text = .ok type := by
  rw [Stage.finish_start]
  cases read text with
  | error fault => exact ⟨nofun, nofun⟩
  | ok found => simp [Except.mapError]

end Relocation.TypeText
