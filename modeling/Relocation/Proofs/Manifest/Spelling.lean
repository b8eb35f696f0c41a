import Relocation.Proofs.Manifest.TypeText
set_option autoImplicit false

/-!
The spelling of printed types. Reading skips white space only, so a type that has been read is printed
with the characters that it was read from. What white space is printed is single spaces, each behind a
comma or the word of a variance. So reading and printing are inverse to each other, but for white space.
-/

namespace Relocation.TypeText

open Text

def visible (text : List Char) : List Char := text.filter fun c => !isBlank c

@[simp] theorem visible_append (one other : List Char) :
    visible (one ++ other) = visible one ++ visible other :=
  List.filter_append ..

@[simp] theorem visible_skipBlank (text : List Char) : visible (skipBlank text) = visible text := by
  have none : visible (text.takeWhile isBlank) = [] := by
    rw [visible, List.filter_eq_nil_iff]
    intro c skipped
    simp [List.mem_takeWhile_imp skipped]
  have all := congrArg visible (List.takeWhile_append_dropWhile (p := isBlank) (l := text))
  rwa [visible_append, none, List.nil_append] at all

theorem visible_of_eat? {token : Char} {text rest : List Char} (eaten : eat? token text = some rest) :
    visible text = visible [token] ++ visible rest := by
  rw [eat?_eq] at eaten
  rw [← visible_skipBlank]
  split at eaten
  next c others start =>
    split at eaten
    next same =>
      cases eaten
      rw [start, same, ← visible_append, List.singleton_append]
    · cases eaten
  · cases eaten

theorem variancePrint_takeVariance (text : List Char) :
    variancePrint (takeVariance text).1 ++ (takeVariance text).2 = text := by
  unfold takeVariance
  split <;> rfl

theorem visible_takeNullable (text : List Char) :
    visible text = visible (if (takeNullable text).1 then ['?'] else []) ++
      visible (takeNullable text).2 := by
  unfold takeNullable
  cases eaten : eat? '?' text with
  | none => exact (visible_skipBlank text).symm
  | some rest => exact visible_of_eat? eaten

theorem visible_of_readArg {steps : Nat} {text rest : List Char} {arg : TypeTextArg}
    (types : ∀ {text rest type}, readType steps text = .ok (type, rest) →
      visible text = visible (print type) ++ visible rest)
    (returned : readArg steps text = .ok (arg, rest)) :
    visible text = visible (printArg arg) ++ visible rest := by
  unfold readArg at returned
  split at returned
  next after eaten =>
    cases returned
    exact visible_of_eat? eaten
  · obtain ⟨⟨type, after⟩, read, done⟩ := bind_eq_ok.mp returned
    cases done
    have start := congrArg visible (variancePrint_takeVariance (skipBlank text))
    rw [visible_append, types read, visible_skipBlank] at start
    simp [← start, printArg]

theorem visible_of_readOthers {steps : Nat} {text rest : List Char} {arg : TypeTextArg}
    {args : List TypeTextArg}
    (further : ∀ {text rest args}, readArgs steps text = .ok (args, rest) →
      args ≠ [] ∧ visible text = visible (printArgs args ++ ['>']) ++ visible rest)
    (returned : readOthers steps arg text = .ok (args, rest)) :
    ∃ others, args = arg :: others ∧
      visible text = visible (printOthers others ++ ['>']) ++ visible rest := by
  unfold readOthers at returned
  split at returned
  next after eaten =>
    obtain ⟨⟨more, last⟩, read, done⟩ := bind_eq_ok.mp returned
    cases done
    obtain ⟨some, all⟩ := further read
    have space (tail : List Char) : visible (',' :: ' ' :: tail) = visible [','] ++ visible tail :=
      rfl
    refine ⟨more, rfl, ?_⟩
    rw [visible_of_eat? eaten, all, printOthers_of_ne_nil some]
    simp [space]
  · split at returned
    next after eaten =>
      cases returned
      exact ⟨[], rfl, visible_of_eat? eaten⟩
    · cases returned

mutual

theorem visible_of_readType : ∀ {steps : Nat} {text rest : List Char} {type : TypeText},
    readType steps text = .ok (type, rest) → visible text = visible (print type) ++ visible rest
  | 0, _, _, _, returned => by
    unfold readType at returned
    cases returned
  | steps + 1, text, rest, type, returned => by
    rw [readType_succ] at returned
    split at returned
    · cases returned
    · obtain ⟨⟨args, behind⟩, brackets, done⟩ := bind_eq_ok.mp returned
      cases done
      have inside : visible ((skipBlank text).dropWhile isNameChar) =
          visible (printRest args false) ++ visible behind := by
        unfold readBrackets at brackets
        split at brackets
        next opened eaten =>
          obtain ⟨some, all⟩ := visible_of_readArgs brackets
          rw [visible_of_eat? eaten, all, printRest, if_neg some, ← List.append_assoc,
            ← visible_append]
          simp
        · cases brackets
          rfl
      have start := congrArg visible
        (List.takeWhile_append_dropWhile (p := isNameChar) (l := skipBlank text))
      rw [visible_append, inside, visible_skipBlank, visible_takeNullable behind] at start
      simp [← start, print_node, printRest]

theorem visible_of_readArgs : ∀ {steps : Nat} {text rest : List Char} {args : List TypeTextArg},
    readArgs steps text = .ok (args, rest) →
      args ≠ [] ∧ visible text = visible (printArgs args ++ ['>']) ++ visible rest
  | 0, _, _, _, returned => by
    unfold readArgs at returned
    cases returned
  | steps + 1, text, rest, args, returned => by
    rw [readArgs_succ] at returned
    obtain ⟨⟨arg, behind⟩, first, others⟩ := bind_eq_ok.mp returned
    have here := visible_of_readArg (fun read => visible_of_readType read) first
    obtain ⟨more, rfl, there⟩ := visible_of_readOthers (fun read => visible_of_readArgs read) others
    refine ⟨List.cons_ne_nil _ _, ?_⟩
    rw [here, there, printArgs_cons]
    simp

end

/-- A text is read as a type that is printed in the same way but for white space. -/
theorem visible_of_read {text : List Char} {type : TypeText} (returned : read text = .ok type) :
    visible (print type) = visible text := by
  unfold read at returned
  obtain ⟨⟨found, rest⟩, whole, done⟩ := bind_eq_ok.mp returned
  dsimp only at done
  split at done
  next ended =>
    cases done
    have nothing := congrArg visible ended
    rw [visible_skipBlank] at nothing
    rw [visible_of_readType whole, nothing]
    exact (List.append_nil _).symm
  · cases done

/-- All white space is single spaces behind commas, `out` and `in`. -/
def Tidy (text : List Char) : Prop :=
  ∀ before c after, text = before ++ c :: after → isBlank c = true →
    c = ' ' ∧ ∃ token ∈ [[','], ['o', 'u', 't'], ['i', 'n']], token <:+ before

theorem Tidy.append {one other : List Char} (first : Tidy one) (second : Tidy other) :
    Tidy (one ++ other) := by
  intro before c after same blank
  rcases List.append_eq_append_iff.mp same with ⟨more, rfl, rest⟩ | ⟨more, rfl, rest⟩
  · obtain ⟨space, token, listed, behind⟩ := second more c after rest blank
    exact ⟨space, token, listed, behind.trans (List.suffix_append ..)⟩
  · cases more with
    | nil =>
      obtain ⟨space, token, listed, behind⟩ := second [] c after rest.symm blank
      exact ⟨space, token, listed, behind.trans List.nil_suffix⟩
    | cons found others =>
      cases rest
      exact first before c others rfl blank

theorem tidy_of_visible {text : List Char} (all : ∀ c ∈ text, isBlank c = false) : Tidy text := by
  intro before c after same blank
  have seen := all c (by simp [same])
  rw [seen] at blank
  cases blank

theorem tidy_nil : Tidy [] := tidy_of_visible nofun

theorem tidy_singleton {c : Char} (seen : isBlank c = false) : Tidy [c] :=
  tidy_of_visible (by simpa using seen)

theorem tidy_space (token : List Char) (listed : token ∈ [[','], ['o', 'u', 't'], ['i', 'n']]) :
    Tidy (token ++ [' ']) := by
  have seen : [[','], ['o', 'u', 't'], ['i', 'n']].all (·.all fun c => !isBlank c) = true := by
    decide
  intro before c after same blank
  cases List.eq_nil_or_concat after with
  | inl last =>
    rw [last] at same
    obtain ⟨rfl, space⟩ := List.append_inj' same rfl
    exact ⟨(List.singleton_inj.mp space).symm, token, listed, List.suffix_rfl⟩
  | inr longer =>
    obtain ⟨others, last, rfl⟩ := longer
    rw [List.concat_eq_append, ← List.cons_append, ← List.append_assoc] at same
    obtain ⟨rfl, -⟩ := List.append_inj' same rfl
    have visible := List.all_eq_true.mp (List.all_eq_true.mp seen _ listed) c (by simp)
    rw [blank] at visible
    cases visible

theorem tidy_variancePrint (variance : Variance) : Tidy (variancePrint variance) := by
  cases variance with
  | invariant => exact tidy_nil
  | out => exact tidy_space ['o', 'u', 't'] (by simp)
  | inward => exact tidy_space ['i', 'n'] (by simp)

theorem IsName.tidy {name : String} (isName : IsName name) : Tidy name.toList := by
  apply tidy_of_visible
  intro c listed
  cases blank : isBlank c with
  | false => rfl
  | true =>
    have isChar := isName.2 c listed
    rw [not_isNameChar_of_isBlank blank] at isChar
    cases isChar

theorem tidy_printOthers {rest : List TypeTextArg} (tidy : rest ≠ [] → Tidy (printArgs rest)) :
    Tidy (printOthers rest) := by
  unfold printOthers
  split
  · exact tidy_nil
  next some => exact (tidy_space [','] (by simp)).append (tidy some)

mutual

theorem tidy_print : ∀ {type : TypeText}, type.Named → Tidy (print type)
  | .node name args nullable, named => by
    unfold Named at named
    have mark : Tidy (if nullable then ['?'] else []) := by
      cases nullable with
      | false => exact tidy_nil
      | true => exact tidy_singleton rfl
    rw [print_node, printRest]
    refine named.1.tidy.append (Tidy.append ?_ mark)
    split
    · exact tidy_nil
    · have inner := (tidy_printArgs named.2).append (tidy_singleton (c := '>') rfl)
      exact (tidy_singleton (c := '<') rfl).append inner

theorem tidy_printArgs : ∀ {args : List TypeTextArg}, AllNamed args → Tidy (printArgs args)
  | [], _ => tidy_nil
  | .star :: rest, named => by
    rw [printArgs_cons, printArg]
    exact (tidy_singleton rfl).append (tidy_printOthers fun _ => tidy_printArgs named)
  | .type variance type :: rest, named => by
    unfold AllNamed at named
    rw [printArgs_cons, printArg]
    have here := (tidy_variancePrint variance).append (tidy_print named.1)
    exact here.append (tidy_printOthers fun _ => tidy_printArgs named.2)

end

/-- Every type with proper names is read back from what it is printed as, and nothing is read that is
not printed in the same way but for white space. -/
theorem spellings_read_back :
    (∀ type : TypeText, type.Named → read (print type) = .ok type) ∧
      ∀ text type, read text = .ok type → type.Named ∧ visible text = visible (print type) := by
  constructor
  · exact fun type named => read_print named
  · exact fun text type returned => ⟨named_of_read returned, (visible_of_read returned).symm⟩

/-- Types with the names `out` and `in`, alone and behind the words of a variance. -/
def wordy : TypeText :=
  .node "k.Map" [
    .type .out (.node "out" [] false), .star, .type .inward (.node "in" [] true),
    .type .invariant (.node "out" [.type .invariant (.node "in" [] false)] false)] true

theorem spellings_read_back_wordy :
    (wordy.Named ∧ read "k.Map<out out, *, in in?, out<in>>?".toList = .ok wordy) ∧
      ∃ type, read "k.Map < out  out,*\n, in in ?,out<in>\t>?".toList = .ok type ∧ type.Named ∧
        visible "k.Map < out  out,*\n, in in ?,out<in>\t>?".toList = visible (print type) ∧
        print type = "k.Map<out out, *, in in?, out<in>>?".toList := by
  have proper : ∀ name ∈ ["k.Map", "out", "in"],
      name.toList ≠ [] ∧ name.toList.all isNameChar = true := by decide +kernel
  have isName (name : String) (listed : name ∈ ["k.Map", "out", "in"]) : IsName name :=
    (proper name listed).imp_right List.all_eq_true.mp
  have named : wordy.Named := by simp [wordy, Named, AllNamed, isName]
  have printed : print wordy = "k.Map<out out, *, in in?, out<in>>?".toList := by decide +kernel
  have back := spellings_read_back.1 wordy named
  rw [printed] at back
  obtain ⟨type, returned, written⟩ :
      ∃ type, read "k.Map < out  out,*\n, in in ?,out<in>\t>?".toList = .ok type ∧
        print type = "k.Map<out out, *, in in?, out<in>>?".toList := by
    apply exists_eq_ok
    decide +kernel
  obtain ⟨properly, seen⟩ := spellings_read_back.2 _ type returned
  exact ⟨⟨named, back⟩, type, returned, properly, seen, written⟩

end Relocation.TypeText
