import Relocation.Proofs.Json.Written
set_option autoImplicit false

/-!
What decoders make of written values. A decoder that reads back what was written does so for lists
of values, for values that may be missing, and for the fields of a record one by one.
-/

namespace Relocation.Json

theorem characters_ofChar (chars : List Char) :
    characters none (chars.map CodeUnit.ofChar) = .ok chars := by
  induction chars with
  | nil => rfl
  | cons c rest inductionHypothesis =>
    rw [List.map_cons, CodeUnit.ofChar]
    split
    next control =>
      have low : c.toNat < 0x20 := control.1
      have notTrail : isTrailSurrogate c.toNat = false := by
        simp only [isTrailSurrogate, Bool.and_eq_false_iff, decide_eq_false_iff_not]
        omega
      have notLead : isLeadSurrogate c.toNat = false := by
        simp only [isLeadSurrogate, Bool.and_eq_false_iff, decide_eq_false_iff_not]
        omega
      unfold characters
      simp [notTrail, notLead, inductionHypothesis, bind, Except.bind, pure, Except.pure]
    next => simp [characters, inductionHypothesis, bind, Except.bind, pure, Except.pure]

@[simp]
theorem string_reading (text : String) : string (Value.string text).reading = .ok text := by
  rw [Value.reading, string, unitsOf, characters_ofChar]
  simp [bind, Except.bind, pure, Except.pure]

@[simp]
theorem bool_reading (value : Bool) : bool (Value.bool value).reading = .ok value := by
  cases value <;> rw [Value.reading] <;> rfl

@[simp]
theorem option_null {α : Type} (decode : Reading → Result α) :
    option decode Value.null.reading = .ok none := by
  rw [Value.reading]
  rfl

theorem option_some {α : Type} {decode : Reading → Result α} {value : Value} {x : α}
    (present : value ≠ .null) (decoded : decode value.reading = .ok x) :
    option decode value.reading = .ok (some x) := by
  have taken : option decode value.reading = return some (← decode value.reading) := by
    cases value with
    | null => exact absurd rfl present
    | bool value => cases value <;> rw [Value.reading] <;> rfl
    | _ => rw [Value.reading]; rfl
  rw [taken, decoded]
  rfl

theorem list_reading {α : Type} {decode : Reading → Result α} {write : α → Value} {depth : Nat}
    (room : depth ≠ 0) {entries : List α}
    (decoded : ∀ entry ∈ entries, decode (write entry).reading = .ok entry) :
    list depth decode (Value.array (entries.map write)).reading = .ok entries := by
  have items : ((entries.map write).map Value.reading).mapM decode = .ok entries := by
    induction entries with
    | nil => rfl
    | cons entry rest inductionHypothesis =>
      have others := inductionHypothesis fun entry listed => decoded entry (.tail _ listed)
      rw [List.map_cons, List.map_cons, List.mapM_cons, decoded entry (.head _), others]
      rfl
  rw [Value.reading, Value.readings_eq_map, list, items]
  simp [room, noFault, bind, Except.bind, pure, Except.pure]

theorem choice_string {α : Type} {depth : Nat} {alternatives : List (Alternative α)}
    {name : String} {value : α}
    (found : alternatives.find? (fun alternative => alternative.name == name) =
      some (.bare name value)) :
    choice depth alternatives (Value.string name).reading = .ok value := by
  have read := string_reading name
  rw [Value.reading] at read ⊢
  rw [choice, read]
  simp [found, bind, Except.bind, pure, Except.pure]

theorem choice_object {α : Type} {depth : Nat} (room : depth ≠ 0)
    {alternatives : List (Alternative α)} {name : String} {decode : Reading → Result α}
    (found : alternatives.find? (fun alternative => alternative.name == name) =
      some (.content name decode))
    {content : Value} {value : α} (decoded : decode content.reading = .ok value) :
    choice depth alternatives (Value.object [(name, content)]).reading = .ok value := by
  have read := string_reading name
  rw [Value.reading] at read
  rw [Value.reading, Value.memberReadings, Value.memberReadings, choice]
  simp [room, memberName, read, found, decoded, noFault, bind, Except.bind, pure, Except.pure]

section Record

variable {α : Type} {fields : List (RecordField α)}

def fillFields (fields : List (RecordField α)) (values : List Value) (start : α) : Result α :=
  (fields.zip values).foldlM (fun record entry => entry.1.decode entry.2.reading record) start

@[simp]
theorem fillFields_nil (fields : List (RecordField α)) (start : α) :
    fillFields fields [] start = .ok start := by
  cases fields <;> rfl

@[simp]
theorem fillFields_cons (field : RecordField α) (fields : List (RecordField α)) (value : Value)
    (values : List Value) (start : α) :
    fillFields (field :: fields) (value :: values) start =
      (field.decode value.reading start).bind (fillFields fields values) := by
  rfl

def fieldNames (fields : List (RecordField α)) : List String := fields.map RecordField.name

theorem find?_field {before after : List (RecordField α)} {field : RecordField α}
    (distinct : (fieldNames (before ++ field :: after)).Nodup) :
    (before ++ field :: after).find? (fun other => other.name == field.name) = some field := by
  have fresh : ∀ other ∈ before, ¬(other.name == field.name) = true := by
    intro other earlier same
    simp only [fieldNames, List.map_append, List.map_cons, List.nodup_append] at distinct
    refine distinct.2.2 other.name (List.mem_map_of_mem earlier) field.name ?_ (by simpa using same)
    exact List.mem_cons_self ..
  rw [List.find?_append, List.find?_eq_none.mpr fresh]
  simp

/-- Members that stand in the order of the fields are taken one after the other. -/
theorem recordMembers_zip (before : List (RecordField α)) {after : List (RecordField α)}
    {values : List Value} (distinct : (fieldNames (before ++ after)).Nodup) {start value : α}
    (filled : fillFields after values start = .ok value) :
    recordMembers (before ++ after) (fieldNames before).reverse start
        (Value.memberReadings ((fieldNames after).zip values)) =
      .ok ((fieldNames (before ++ after.take values.length)).reverse, value) := by
  induction values generalizing before after start with
  | nil =>
    rw [fillFields_nil] at filled
    cases filled
    simp [Value.memberReadings, recordMembers]
  | cons written values inductionHypothesis =>
    cases after with
    | nil =>
      cases filled
      simp [fieldNames, Value.memberReadings, recordMembers]
    | cons field after =>
      have regrouped : before ++ field :: after = (before ++ [field]) ++ after := by simp
      have new : field.name ∉ fieldNames before := by
        intro earlier
        simp only [fieldNames, List.map_append, List.map_cons, List.nodup_append] at distinct
        exact distinct.2.2 field.name earlier field.name (List.mem_cons_self ..) rfl
      have read := string_reading field.name
      rw [Value.reading] at read
      rw [fillFields_cons] at filled
      cases decoded : field.decode written.reading start with
      | error problem =>
        rw [decoded] at filled
        cases filled
      | ok next =>
        rw [decoded] at filled
        have rest := inductionHypothesis (before ++ [field]) (regrouped ▸ distinct) filled
        have seen : (fieldNames (before ++ [field])).reverse =
            field.name :: (fieldNames before).reverse := by
          simp [fieldNames]
        rw [← regrouped, seen] at rest
        have zipped : (fieldNames (field :: after)).zip (written :: values) =
            (field.name, written) :: (fieldNames after).zip values := rfl
        rw [zipped, Value.memberReadings, recordMembers]
        simp [memberName, read, bind, Except.bind, find?_field distinct, decoded, new, rest]

/-- A record is read back if its fields are, and if none is missing that has to be there. -/
theorem record_reading {depth : Nat} (room : depth ≠ 0) (names : List String)
    (named : fieldNames fields = names) (distinct : names.Nodup) (values : List Value)
    (left : ∀ field ∈ fields.drop values.length, field.required = false) {defaults value : α}
    (filled : fillFields fields values defaults = .ok value) :
    record depth fields defaults (Value.object (names.zip values)).reading = .ok value := by
  subst named
  have members := recordMembers_zip [] distinct filled
  have complete : (fields.any fun field => field.required &&
      !(fieldNames (fields.take values.length)).reverse.contains field.name) = false := by
    rw [List.any_eq_false]
    intro field listed
    rw [← List.take_append_drop values.length fields] at listed
    rcases List.mem_append.mp listed with taken | rest
    · have seen : field.name ∈ fieldNames (fields.take values.length) := List.mem_map_of_mem taken
      simp [seen]
    · simp [left field rest]
  have unseen : (fieldNames ([] : List (RecordField α))).reverse = [] := rfl
  rw [List.nil_append, List.nil_append, unseen] at members
  rw [Value.reading, record]
  simp only [room, if_false, members, bind, Except.bind, noFault, complete, Bool.false_eq_true,
    pure, Except.pure]

end Record

end Relocation.Json
