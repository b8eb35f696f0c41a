import Relocation.Proofs.Visibility.Exposed
set_option autoImplicit false

/-!
The detector of lost sight run along the usages, with a memory of the pairs that it has looked at: a
declaration that is referred to, and the context of the usage.

After any number of usages the memory holds the pairs of those that were not passed over. A usage in
a file and outside all declarations leaves its pair there as well, but no usage that is judged makes
the same. So a run from an empty memory reports what the detector does.
-/

namespace Relocation.Pass

variable {pass : Pass}

section Run

variable (pass) (stays : Bool)

def contextOf (usage : Usage) : Element :=
  match (pass.project.reference usage.reference).owner with
  | some owner => .decl owner
  | none => .file (pass.project.reference usage.reference).file

/-- What is remembered of a usage that was looked at. -/
def pairOf (usage : Usage) : DeclId × Element := (usage.referenced, pass.contextOf usage)

def remember (checked : List (DeclId × Element)) (usage : Usage) : List (DeclId × Element) :=
  if pass.passesOver stays usage then checked else checked.insert (pass.pairOf usage)

def loser? (usage : Usage) : Option DeclId :=
  match pass.targetContainer?, (pass.project.reference usage.reference).owner with
  | some target, some owner =>
    if pass.isLost target usage.referenced owner then some owner else none
  | _, _ => none

def reportedOf? (checked : List (DeclId × Element)) (usage : Usage) : Option (Usage × DeclId) :=
  if pass.passesOver stays usage || checked.contains (pass.pairOf usage) then none
  else (pass.loser? usage).map fun owner => (usage, owner)

def reportedAlong : List (DeclId × Element) → List Usage → List (Usage × DeclId)
  | _, [] => []
  | checked, usage :: rest =>
    (pass.reportedOf? stays checked usage).toList ++
      reportedAlong (pass.remember stays checked usage) rest

end Run

theorem contextOf_of_owned {usage : Usage} {owner : DeclId}
    (owned : (pass.project.reference usage.reference).owner = some owner) :
    pass.contextOf usage = .decl owner := by
  simp [contextOf, owned]

theorem owned_of_contextOf {usage : Usage} {owner : DeclId}
    (context : pass.contextOf usage = .decl owner) :
    (pass.project.reference usage.reference).owner = some owner := by
  unfold contextOf at context
  split at context
  next around owned =>
    cases context
    exact owned
  · cases context

theorem loser?_eq_some_iff {usage : Usage} {owner : DeclId} :
    pass.loser? usage = some owner ↔
      (pass.project.reference usage.reference).owner = some owner ∧
        pass.GoesOutOfSight usage.referenced owner := by
  unfold loser?
  cases targeted : pass.targetContainer? with
  | none => simp [GoesOutOfSight, targeted]
  | some target =>
    cases owned : (pass.project.reference usage.reference).owner with
    | none => simp
    | some around =>
      by_cases same : around = owner
      · subst same
        simp [isLost_iff targeted]
      · simp [same]

variable {stays : Bool} {checked : List (DeclId × Element)} {usage : Usage}

theorem mem_remember {pair : DeclId × Element} :
    pair ∈ pass.remember stays checked usage ↔
      pair ∈ checked ∨ pass.passesOver stays usage = false ∧ pass.pairOf usage = pair := by
  unfold remember
  cases pass.passesOver stays usage with
  | true => simp
  | false => simp [or_comm, eq_comm]

theorem reportedOf?_eq_some_iff {reported : Usage × DeclId} :
    pass.reportedOf? stays checked usage = some reported ↔
      reported.1 = usage ∧ pass.passesOver stays usage = false ∧ pass.pairOf usage ∉ checked ∧
        (pass.project.reference usage.reference).owner = some reported.2 ∧
        pass.GoesOutOfSight usage.referenced reported.2 := by
  obtain ⟨other, owner⟩ := reported
  rw [← loser?_eq_some_iff]
  unfold reportedOf?
  cases pass.passesOver stays usage with
  | true => simp
  | false =>
    by_cases known : pass.pairOf usage ∈ checked
    · simp [known]
    · simp only [known, Bool.false_or, List.contains_eq_mem, decide_false, if_false,
        Bool.false_eq_true, Option.map_eq_some_iff, Prod.mk.injEq, exists_eq_right_right,
        not_false_eq_true, true_and]
      exact and_comm.trans (and_congr_left fun _ => eq_comm)

theorem reportedAlong_append (before after : List Usage) :
    pass.reportedAlong stays checked (before ++ after) =
      pass.reportedAlong stays checked before ++
        pass.reportedAlong stays (before.foldl (pass.remember stays) checked) after := by
  induction before generalizing checked with
  | nil => rfl
  | cons usage rest inductionHypothesis =>
    simp only [List.cons_append, reportedAlong, inductionHypothesis, List.append_assoc,
      List.foldl_cons]

theorem mem_memory {before : List Usage} {pair : DeclId × Element} :
    pair ∈ before.foldl (pass.remember stays) checked ↔
      pair ∈ checked ∨
        ∃ usage ∈ before, pass.passesOver stays usage = false ∧ pass.pairOf usage = pair := by
  induction before generalizing checked with
  | nil => simp
  | cons usage rest inductionHypothesis =>
    simp only [List.foldl_cons, inductionHypothesis, mem_remember, List.mem_cons, or_assoc,
      exists_eq_or_imp]

theorem mem_reportedAlong {usages : List Usage} {reported : Usage × DeclId} :
    reported ∈ pass.reportedAlong stays checked usages ↔
      ∃ before after, usages = before ++ reported.1 :: after ∧
        pass.reportedOf? stays (before.foldl (pass.remember stays) checked) reported.1 =
          some reported := by
  constructor
  · intro found
    induction usages generalizing checked with
    | nil => cases found
    | cons usage rest inductionHypothesis =>
      rcases List.mem_append.mp found with here | later
      · have judged := Option.mem_toList.mp here
        obtain rfl := (reportedOf?_eq_some_iff.mp judged).1
        exact ⟨[], rest, rfl, judged⟩
      · obtain ⟨before, after, rfl, judged⟩ := inductionHypothesis later
        exact ⟨usage :: before, after, rfl, judged⟩
  · rintro ⟨before, after, rfl, judged⟩
    rw [reportedAlong_append]
    exact List.mem_append_right _ (List.mem_append_left _ (Option.mem_toList.mpr judged))

/-- No pair is reported that was looked at before. -/
theorem pairOf_not_mem_of_mem_reportedAlong {usages : List Usage} {reported : Usage × DeclId}
    (found : reported ∈ pass.reportedAlong stays checked usages) :
    pass.pairOf reported.1 ∉ checked := by
  obtain ⟨before, after, -, judged⟩ := mem_reportedAlong.mp found
  intro known
  exact (reportedOf?_eq_some_iff.mp judged).2.2.1 (mem_memory.mpr (Or.inl known))

/-- No pair is reported twice. -/
theorem nodup_reportedAlong (usages : List Usage) :
    ((pass.reportedAlong stays checked usages).map fun reported =>
      pass.pairOf reported.1).Nodup := by
  induction usages generalizing checked with
  | nil => exact List.nodup_nil
  | cons usage rest inductionHypothesis =>
    rw [reportedAlong]
    cases judged : pass.reportedOf? stays checked usage with
    | none => exact inductionHypothesis
    | some reported =>
      obtain ⟨rfl, looked, -⟩ := reportedOf?_eq_some_iff.mp judged
      apply List.nodup_cons.mpr
      refine ⟨fun again => ?_, inductionHypothesis⟩
      obtain ⟨other, later, same⟩ := List.mem_map.mp again
      apply pairOf_not_mem_of_mem_reportedAlong later
      exact mem_remember.mpr (Or.inr ⟨looked, same.symm⟩)

theorem sublist_reportedAlong (usages : List Usage) :
    ((pass.reportedAlong stays checked usages).map Prod.fst).Sublist usages := by
  induction usages generalizing checked with
  | nil => exact List.Sublist.slnil
  | cons usage rest inductionHypothesis =>
    rw [reportedAlong]
    cases judged : pass.reportedOf? stays checked usage with
    | none => exact inductionHypothesis.cons usage
    | some reported =>
      obtain ⟨rfl, -⟩ := reportedOf?_eq_some_iff.mp judged
      exact inductionHypothesis.cons_cons reported.1

variable (pass) in
def withOwners (usages : List Usage) : List (Usage × DeclId) :=
  usages.filterMap fun usage => (pass.exposedOwner? usage).map fun owner => (usage, owner)

def samePair (one other : Usage × DeclId) : Bool :=
  one.1.referenced == other.1.referenced && one.2 == other.2

variable (pass) in
def unseen (checked : List (DeclId × Element)) (usages : List Usage) : List (Usage × DeclId) :=
  (pass.withOwners usages).filter fun looked => !checked.contains (pass.pairOf looked.1)

theorem eligible_of_mem_withOwners {usages : List Usage} {looked : Usage × DeclId}
    (member : looked ∈ pass.withOwners usages) : pass.Eligible looked.1 looked.2 := by
  obtain ⟨usage, -, found⟩ := List.mem_filterMap.mp member
  obtain ⟨owner, exposed, rfl⟩ := Option.map_eq_some_iff.mp found
  exact exposedOwner?_eq_some_iff.mp exposed

theorem mem_unseen {usages : List Usage} {looked : Usage × DeclId} :
    looked ∈ pass.unseen checked usages ↔
      looked ∈ pass.withOwners usages ∧ pass.pairOf looked.1 ∉ checked := by
  simp [unseen]

theorem samePair_iff {one other : Usage × DeclId} (first : pass.Eligible one.1 one.2)
    (second : pass.Eligible other.1 other.2) :
    samePair one other = true ↔ pass.pairOf one.1 = pass.pairOf other.1 := by
  simp [samePair, pairOf, contextOf_of_owned first.owned, contextOf_of_owned second.owned]

theorem pairOf_mem_remember {looked : Usage × DeclId} (eligible : pass.Eligible looked.1 looked.2) :
    pass.pairOf looked.1 ∈ pass.remember pass.isPublicTarget checked usage ↔
      pass.pairOf looked.1 ∈ checked ∨
        ∃ owner, pass.exposedOwner? usage = some owner ∧ samePair looked (usage, owner) = true := by
  rw [mem_remember]
  refine or_congr_right ⟨?_, ?_⟩
  · rintro ⟨notPassed, same⟩
    have context : pass.contextOf usage = .decl looked.2 :=
      (congrArg Prod.snd same).trans (contextOf_of_owned eligible.owned)
    have exposed : pass.Eligible usage looked.2 :=
      eligible_iff.mpr ⟨notPassed, owned_of_contextOf context⟩
    exact ⟨looked.2, exposedOwner?_eq_some_iff.mpr exposed,
      (samePair_iff eligible exposed).mpr same.symm⟩
  · rintro ⟨owner, found, same⟩
    have exposed : pass.Eligible usage owner := exposedOwner?_eq_some_iff.mp found
    exact ⟨(eligible_iff.mp exposed).1, ((samePair_iff eligible exposed).mp same).symm⟩

theorem unseen_remember (rest : List Usage) :
    pass.unseen (pass.remember pass.isPublicTarget checked usage) rest =
      (pass.unseen checked rest).filter fun looked =>
        (pass.exposedOwner? usage).all fun owner => !samePair looked (usage, owner) := by
  unfold unseen
  rw [List.filter_filter]
  refine List.filter_congr fun looked member => ?_
  have remembered : pass.pairOf looked.1 ∈ pass.remember pass.isPublicTarget checked usage ↔ _ :=
    pairOf_mem_remember (eligible_of_mem_withOwners member)
  cases exposed : pass.exposedOwner? usage with
  | none => simp [remembered, exposed]
  | some owner =>
    simp only [remembered, exposed, List.contains_eq_mem, Option.some.injEq, exists_eq_left',
      Bool.decide_or, Bool.decide_eq_true, Bool.not_or, Option.all_some]
    exact Bool.and_comm ..

theorem unseen_remember_of_known (known : ∀ owner, pass.exposedOwner? usage = some owner →
    pass.pairOf usage ∈ checked) (rest : List Usage) :
    pass.unseen (pass.remember pass.isPublicTarget checked usage) rest =
      pass.unseen checked rest := by
  rw [unseen_remember, List.filter_eq_self]
  intro looked member
  obtain ⟨listed, new⟩ := mem_unseen.mp member
  cases exposed : pass.exposedOwner? usage with
  | none => rfl
  | some owner =>
    rw [Option.all_some, Bool.not_eq_true']
    by_contra matching
    have eligible : pass.Eligible usage owner := exposedOwner?_eq_some_iff.mp exposed
    have same : pass.pairOf looked.1 = pass.pairOf usage :=
      (samePair_iff (eligible_of_mem_withOwners listed) eligible).mp (Bool.of_not_eq_false matching)
    exact new (same ▸ known owner exposed)

theorem reportedOf?_of_unexposed (unexposed : pass.exposedOwner? usage = none) :
    pass.reportedOf? pass.isPublicTarget checked usage = none := by
  apply Option.eq_none_iff_forall_ne_some.mpr
  intro reported judged
  obtain ⟨-, notPassed, -, owned, -⟩ := reportedOf?_eq_some_iff.mp judged
  have found := exposedOwner?_eq_some_iff.mpr (eligible_iff.mpr ⟨notPassed, owned⟩)
  rw [unexposed] at found
  cases found

theorem reportedOf?_of_new {target : Container} (targeted : pass.targetContainer? = some target)
    {owner : DeclId} (exposed : pass.exposedOwner? usage = some owner)
    (new : pass.pairOf usage ∉ checked) :
    pass.reportedOf? pass.isPublicTarget checked usage =
      if pass.isLost target usage.referenced owner then some (usage, owner) else none := by
  have eligible := exposedOwner?_eq_some_iff.mp exposed
  have notPassed := (eligible_iff.mp eligible).1
  unfold reportedOf? loser?
  rw [targeted, eligible.owned]
  cases lost : pass.isLost target usage.referenced owner <;> simp [notPassed, new, lost]

/-- A run reports what the detector does of the usages that are unseen at its start. -/
theorem reportedAlong_eq_filter {target : Container}
    (targeted : pass.targetContainer? = some target) (usages : List Usage) :
    pass.reportedAlong pass.isPublicTarget checked usages =
      ((pass.unseen checked usages).eraseDupsBy samePair).filter fun looked =>
        pass.isLost target looked.1.referenced looked.2 := by
  induction usages generalizing checked with
  | nil => rfl
  | cons usage rest inductionHypothesis =>
    rw [reportedAlong, inductionHypothesis]
    cases exposed : pass.exposedOwner? usage with
    | none =>
      have others : pass.unseen checked (usage :: rest) = pass.unseen checked rest := by
        simp [unseen, withOwners, exposed]
      rw [reportedOf?_of_unexposed exposed, others,
        unseen_remember_of_known (by simp [exposed])]
      rfl
    | some owner =>
      by_cases known : pass.pairOf usage ∈ checked
      · have others : pass.unseen checked (usage :: rest) = pass.unseen checked rest := by
          simp [unseen, withOwners, exposed, known]
        have passed : pass.reportedOf? pass.isPublicTarget checked usage = none := by
          simp [reportedOf?, known]
        rw [passed, others, unseen_remember_of_known fun _ _ => known]
        rfl
      · have others : pass.unseen checked (usage :: rest) =
            (usage, owner) :: pass.unseen checked rest := by
          simp [unseen, withOwners, exposed, known]
        rw [reportedOf?_of_new targeted exposed known, others, unseen_remember, exposed,
          List.eraseDupsBy_cons, List.filter_cons]
        cases pass.isLost target usage.referenced owner <;> simp

/-- The detector reports what a run from an empty memory does. -/
theorem reportedUsages_eq (external : List Usage) :
    pass.reportedUsages external = pass.reportedAlong pass.isPublicTarget [] external := by
  unfold reportedUsages
  cases targeted : pass.targetContainer? with
  | none =>
    apply Eq.symm
    apply List.eq_nil_iff_forall_not_mem.mpr
    intro reported found
    obtain ⟨_, _, -, judged⟩ := mem_reportedAlong.mp found
    obtain ⟨-, -, -, -, _, _, located, -⟩ := reportedOf?_eq_some_iff.mp judged
    rw [targeted] at located
    cases located
  | some target =>
    have all : pass.unseen [] external = pass.withOwners external := by simp [unseen]
    rw [reportedAlong_eq_filter targeted, all]
    rfl

end Relocation.Pass
