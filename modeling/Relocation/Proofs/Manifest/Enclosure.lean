import Relocation.Proofs.Manifest.Outline
set_option autoImplicit false

/-!
What stands in what, in the outline of a manifest. The numbers of a declaration and of all that is
nested in it are an interval that starts with its own. So what has a declaration for its parent is
found between that declaration and the next one beside it: its members, in order.
-/

namespace Relocation.Manifest

def Placed.called (placed : Placed) : DeclEntry × String := (placed.entry, placed.name)

def calledIn (owner : Option String) (entries : List DeclEntry) : List (DeclEntry × String) :=
  entries.map fun entry => (entry, entry.head.nameIn owner)

/-- An outline numbered from `first`, in which what does not stand in another of its declarations
stands in some outer parent. -/
structure Spans (outer : Parent → Prop) (first : Nat) (outline : List Placed) : Prop where
  ids : ∀ placed ∈ outline, first ≤ placed.id.index ∧ placed.id.index < first + outline.length
  parents : ∀ placed ∈ outline, outer placed.parent ∨
    ∃ owner, placed.parent = .decl owner ∧ first ≤ owner.index ∧
      owner.index < first + outline.length

variable {parent : Parent} {owner : Option String} {first home : Nat}

theorem inside_append (parent : Parent) (one other : List Placed) :
    inside parent (one ++ other) = inside parent one ++ inside parent other :=
  List.filter_append ..

theorem Spans.inside_eq_nil {outer : Parent → Prop} {outline : List Placed}
    (spans : Spans outer first outline) (foreign : ¬ outer parent)
    (apart : ∀ decl, parent = .decl decl →
      decl.index < first ∨ first + outline.length ≤ decl.index) : inside parent outline = [] := by
  rw [inside, List.filter_eq_nil_iff]
  intro placed listed same
  have same := beq_iff_eq.mp same
  rcases spans.parents placed listed with isOuter | ⟨decl, isDecl, low, high⟩
  · exact foreign (same ▸ isOuter)
  · rcases apart decl (same ▸ isDecl) with before | behind
    · omega
    · omega

theorem Spans.append {outer : Parent → Prop} {one other : List Placed}
    (left : Spans outer first one) (right : Spans outer (first + one.length) other) :
    Spans outer first (one ++ other) := by
  constructor
  · intro placed listed
    rw [List.length_append]
    rcases List.mem_append.mp listed with early | late
    · have bounds := left.ids placed early
      omega
    · have bounds := right.ids placed late
      omega
  · intro placed listed
    rw [List.length_append]
    rcases List.mem_append.mp listed with early | late
    · apply (left.parents placed early).imp_right
      rintro ⟨decl, isDecl, low, high⟩
      exact ⟨decl, isDecl, low, by omega⟩
    · apply (right.parents placed late).imp_right
      rintro ⟨decl, isDecl, low, high⟩
      exact ⟨decl, isDecl, by omega, by omega⟩

theorem Spans.cons {placed : Placed} {outline : List Placed}
    (within : Spans (· = .decl ⟨first⟩) (first + 1) outline) (number : placed.id = ⟨first⟩)
    (outer : placed.parent = parent) : Spans (· = parent) first (placed :: outline) := by
  constructor
  · intro other listed
    rw [List.length_cons]
    rcases List.mem_cons.mp listed with rfl | later
    · simp [number]
    · have bounds := within.ids other later
      omega
  · intro other listed
    rw [List.length_cons]
    rcases List.mem_cons.mp listed with rfl | later
    · exact .inl outer
    · right
      rcases within.parents other later with isOwner | ⟨decl, isDecl, low, high⟩
      · exact ⟨⟨first⟩, isOwner, Nat.le_refl _, by simp⟩
      · exact ⟨decl, isDecl, by omega, by omega⟩

mutual

theorem spans_place (parent : Parent) (owner : Option String) (first : Nat) :
    ∀ entry : DeclEntry, Spans (· = parent) first (entry.place parent owner first)
  | .node head members => by
    unfold DeclEntry.place
    have within := spans_placeAll (.decl ⟨first⟩) (some (head.nameIn owner)) (first + 1) members
    exact within.cons rfl rfl

theorem spans_placeAll (parent : Parent) (owner : Option String) (first : Nat) :
    ∀ entries : List DeclEntry, Spans (· = parent) first (placeAll parent owner first entries)
  | [] => ⟨nofun, nofun⟩
  | entry :: rest => by
    unfold placeAll
    exact (spans_place parent owner first entry).append (spans_placeAll parent owner _ rest)

end

def Before (first : Nat) : Parent → Prop
  | .file _ => True
  | .decl owner => owner.index < first

theorem Before.mono {more : Nat} (before : Before first parent) (le : first ≤ more) :
    Before more parent := by
  cases parent with
  | file file => trivial
  | decl owner => exact Nat.lt_of_lt_of_le before le

theorem Before.ne_decl {decl : DeclId} (before : Before first parent) (le : first ≤ decl.index) :
    parent ≠ .decl decl := by
  rintro rfl
  exact Nat.not_lt_of_le le before

theorem inside_place (before : Before first parent) (entry : DeclEntry) :
    (inside parent (entry.place parent owner first)).map Placed.called = calledIn owner [entry] := by
  rcases entry with ⟨head, members⟩
  have none : inside parent
      (placeAll (.decl ⟨first⟩) (some (head.nameIn owner)) (first + 1) members) = [] := by
    apply (spans_placeAll _ _ _ members).inside_eq_nil (before.ne_decl (Nat.le_refl first))
    rintro decl rfl
    exact .inl (Nat.lt_succ_of_lt before)
  unfold DeclEntry.place
  rw [inside, List.filter_cons_of_pos (by simp)]
  exact congrArg (_ :: List.map Placed.called ·) none

theorem inside_placeAll (before : Before first parent) (entries : List DeclEntry) :
    (inside parent (placeAll parent owner first entries)).map Placed.called =
      calledIn owner entries := by
  induction entries generalizing first with
  | nil => rfl
  | cons entry rest inductionHypothesis =>
    unfold placeAll
    rw [inside_append, List.map_append, inside_place before,
      inductionHypothesis (before.mono (Nat.le_add_right ..))]
    rfl

mutual

theorem members_place : ∀ (entry : DeclEntry) {parent : Parent} {owner : Option String}
    {first : Nat}, Before first parent → ∀ placed ∈ entry.place parent owner first,
      (inside (.decl placed.id) (entry.place parent owner first)).map Placed.called =
        calledIn (some placed.name) placed.entry.members
  | .node head members, parent, owner, first, before, placed, listed => by
    unfold DeclEntry.place at listed ⊢
    have within := spans_placeAll (.decl ⟨first⟩) (some (head.nameIn owner)) (first + 1) members
    have low : first ≤ placed.id.index := by
      rcases List.mem_cons.mp listed with rfl | later
      · exact Nat.le_refl first
      · exact Nat.le_of_succ_le (within.ids placed later).1
    rw [inside, List.filter_cons_of_neg (by simpa using before.ne_decl low)]
    have root : Before (first + 1) (.decl ⟨first⟩) := Nat.lt_succ_self first
    rcases List.mem_cons.mp listed with rfl | later
    · exact inside_placeAll root members
    · exact members_placeAll members root placed later

theorem members_placeAll : ∀ (entries : List DeclEntry) {parent : Parent} {owner : Option String}
    {first : Nat}, Before first parent → ∀ placed ∈ placeAll parent owner first entries,
      (inside (.decl placed.id) (placeAll parent owner first entries)).map Placed.called =
        calledIn (some placed.name) placed.entry.members
  | [], _, _, _, _, _, listed => by cases listed
  | entry :: rest, parent, owner, first, before, placed, listed => by
    unfold placeAll at listed ⊢
    have here := spans_place parent owner first entry
    have there := spans_placeAll parent owner (first + (entry.place parent owner first).length) rest
    -- What stands in a declaration is on the same side of the cut as the declaration itself.
    rw [inside_append]
    rcases List.mem_append.mp listed with early | late
    · have bounds := here.ids placed early
      have none := there.inside_eq_nil (before.ne_decl bounds.1).symm (by
        intro decl same
        cases same
        exact .inl bounds.2)
      rw [none, List.append_nil, members_place entry before placed early]
    · have bounds := there.ids placed late
      have none := here.inside_eq_nil (before.ne_decl (Nat.le_of_add_right_le bounds.1)).symm (by
        intro decl same
        cases same
        exact .inr bounds.1)
      rw [none, List.nil_append,
        members_placeAll rest (before.mono (Nat.le_add_right ..)) placed late]

end

def FileFrom (home : Nat) (parent : Parent) : Prop :=
  ∃ file, parent = .file file ∧ home ≤ file.index

theorem FileFrom.not_decl (decl : DeclId) : ¬ FileFrom home (.decl decl) := by
  rintro ⟨file, isFile, -⟩
  cases isFile

theorem Spans.weaken {outer wider : Parent → Prop} {outline : List Placed}
    (spans : Spans outer first outline) (le : ∀ parent, outer parent → wider parent) :
    Spans wider first outline :=
  ⟨spans.ids, fun placed listed => (spans.parents placed listed).imp_left (le _)⟩

theorem spans_placeFiles (home first : Nat) (files : List FileEntry) :
    Spans (FileFrom home) first (placeFiles home first files) := by
  induction files generalizing home first with
  | nil => exact ⟨nofun, nofun⟩
  | cons e rest inductionHypothesis =>
    unfold placeFiles
    apply Spans.append
    · apply (spans_placeAll (.file ⟨home⟩) none first e.declarations).weaken
      rintro parent rfl
      exact ⟨⟨home⟩, rfl, Nat.le_refl home⟩
    · apply (inductionHypothesis (home + 1) _).weaken
      rintro parent ⟨file, rfl, low⟩
      exact ⟨file, rfl, Nat.le_of_succ_le low⟩

theorem members_placeFiles (home first : Nat) (files : List FileEntry) :
    ∀ placed ∈ placeFiles home first files,
      (inside (.decl placed.id) (placeFiles home first files)).map Placed.called =
        calledIn (some placed.name) placed.entry.members := by
  induction files generalizing home first with
  | nil => exact nofun
  | cons e rest inductionHypothesis =>
    unfold placeFiles
    intro placed listed
    have outer : Before first (.file ⟨home⟩) := trivial
    have here := spans_placeAll (.file ⟨home⟩) none first e.declarations
    have there := spans_placeFiles (home + 1)
      (first + (placeAll (.file ⟨home⟩) none first e.declarations).length) rest
    rw [inside_append]
    rcases List.mem_append.mp listed with early | late
    · have bounds := here.ids placed early
      have none := there.inside_eq_nil (FileFrom.not_decl placed.id) (by
        intro decl same
        cases same
        exact .inl bounds.2)
      rw [none, List.append_nil, members_placeAll e.declarations outer placed early]
    · have bounds := there.ids placed late
      have none := here.inside_eq_nil (outer.ne_decl (Nat.le_of_add_right_le bounds.1)).symm (by
        intro decl same
        cases same
        exact .inr bounds.1)
      rw [none, List.nil_append, inductionHypothesis _ _ placed late]

theorem inside_placeFiles {files : List FileEntry} {index : Nat} {e : FileEntry}
    (found : files[index]? = some e) (home first : Nat) :
    (inside (.file ⟨home + index⟩) (placeFiles home first files)).map Placed.called =
      calledIn none e.declarations := by
  induction files generalizing home first index with
  | nil => cases found
  | cons one rest inductionHypothesis =>
    unfold placeFiles
    rw [inside_append, List.map_append]
    cases index with
    | zero =>
      obtain rfl := Option.some.inj found
      have outer : Before first (.file ⟨home⟩) := trivial
      have elsewhere : ¬ FileFrom (home + 1) (.file ⟨home⟩) := by
        rintro ⟨file, same, low⟩
        cases same
        exact Nat.not_succ_le_self home low
      rw [Nat.add_zero, (spans_placeFiles _ _ rest).inside_eq_nil elsewhere (by simp),
        inside_placeAll outer]
      exact List.append_nil _
    | succ index =>
      have elsewhere : ¬ Parent.file ⟨home + (index + 1)⟩ = .file ⟨home⟩ := by
        simp
      rw [(spans_placeAll _ _ _ one.declarations).inside_eq_nil elsewhere (by simp), List.map_nil,
        List.nil_append, ← Nat.add_assoc, Nat.add_right_comm]
      exact inductionHypothesis found _ _

end Relocation.Manifest
