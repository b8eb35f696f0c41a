import Mathlib.Data.List.Forall2
import Relocation.Proofs.Manifest.Resolving
set_option autoImplicit false

/-!
Signatures: what the head of an entry names is found, in order, with the declaration that is made of
the entry. The text of each type stands for the type that is there, in the finished project as well.
-/

namespace Relocation

open Manifest (Names DeclHead)

namespace Manifest.Loader

/-- A text stands for a type that is in the table. -/
def Denotes (names : Names DeclId) (p : Project) (context : DeclId) (text : String) (type : TypeId) :
    Prop :=
  resolveType names p context text = .ok (type, p)

/-- A declaration carries what the head of its entry names, item by item. -/
structure Signed (names : Names DeclId) (p : Project) (id : DeclId) (head : DeclHead) : Prop where
  supertypes : List.Forall₂ (Denotes names p id) head.supertypes (p.decl id).supertypes
  overrides : List.Forall₂ (fun name other => names.lookup name = some other)
    head.overrides (p.decl id).overrides
  params : List.Forall₂
    (fun e param => param.name = e.name ∧ Denotes names p id e.type param.type)
    head.params (p.decl id).params
  type : List.Forall₂ (Denotes names p id) head.type.toList (p.decl id).type.toList
  bounds : List.Forall₂ (Denotes names p id) head.bounds (p.decl id).bounds

/-- Signatures of some declarations are written, and types are added. -/
structure Writes (ids : List DeclId) (p q : Project) : Prop where
  refines : p.Refines q
  others : ∀ id, id ∉ ids → q.decl id = p.decl id
  references : q.references = p.references
  ordered : p.types.Ordered → q.types.Ordered

variable {names : Names DeclId} {p q r : Project} {ids : List DeclId} {id : DeclId}

theorem Writes.refl (ids : List DeclId) (p : Project) : Writes ids p p :=
  ⟨Project.Refines.refl p, fun _ _ => rfl, rfl, id⟩

theorem Writes.trans (first : Writes ids p q) (second : Writes ids q r) : Writes ids p r where
  refines := first.refines.trans second.refines
  others := fun id outside => (second.others id outside).trans (first.others id outside)
  references := second.references.trans first.references
  ordered := second.ordered ∘ first.ordered

theorem Writes.mono {more : List DeclId} (writes : Writes ids p q) (within : ids ⊆ more) :
    Writes more p q :=
  ⟨writes.refines, fun id outside => writes.others id fun member => outside (within member),
    writes.references, writes.ordered⟩

theorem Denotes.refine {context : DeclId} {text : String} {type : TypeId}
    (denotes : Denotes names p context text type) (refines : p.Refines q) :
    Denotes names q context text type :=
  resolveType_again denotes refines

/-- A signature stays right as long as nobody writes it. -/
theorem Signed.refine {head : DeclHead} (signed : Signed names p id head) (refines : p.Refines q)
    (same : q.decl id = p.decl id) : Signed names q id head := by
  constructor
  · rw [same]
    exact signed.supertypes.imp fun _ _ denotes => denotes.refine refines
  · rw [same]
    exact signed.overrides
  · rw [same]
    exact signed.params.imp fun _ _ denotes => ⟨denotes.1, denotes.2.refine refines⟩
  · rw [same]
    exact signed.type.imp fun _ _ denotes => denotes.refine refines
  · rw [same]
    exact signed.bounds.imp fun _ _ denotes => denotes.refine refines

theorem writes_editDecl (p : Project) (id : DeclId) {edit : Declaration → Declaration}
    (outside : ∀ data, (edit data).unsigned = data.unsigned) :
    Writes [id] p (p.editDecl id edit) where
  refines := Project.Refines.editDecl id outside
  others := by
    intro other different
    rw [Project.decl_editDecl, if_neg fun same => different (by simp [same.1])]
  references := rfl
  ordered := fun ordered => ordered

theorem decl_editDecl_self (known : id ∈ p.declIds) (edit : Declaration → Declaration) :
    (p.editDecl id edit).decl id = edit (p.decl id) := by
  rw [Project.decl_editDecl, if_pos ⟨rfl, known⟩]

theorem writes_addType (edit : TypeId → Declaration → Declaration) {text : String}
    (known : id ∈ p.declIds) (outside : ∀ type data, (edit type data).unsigned = data.unsigned)
    (returned : addType names id (fun r type => r.editDecl id (edit type)) p text = .ok q) :
    Writes [id] p q ∧ ∃ type, Denotes names q id text type ∧ q.decl id = edit type (p.decl id) := by
  obtain ⟨⟨type, middle⟩, resolved, done⟩ := bind_eq_ok.mp returned
  cases done
  have ordered := ordered_resolveType resolved
  obtain ⟨types, grows, rfl⟩ := frame_resolveType resolved
  have taken : Writes [id] p { p with types } :=
    ⟨Project.Refines.withTypes grows, fun _ _ => rfl, rfl, ordered⟩
  have edited := writes_editDecl { p with types } id (outside type)
  refine ⟨taken.trans edited, type, resolveType_again resolved edited.refines, ?_⟩
  exact decl_editDecl_self (p := { p with types }) known (edit type)

/-- Entries of one list are resolved in order, and each adds one item to the declaration.
`extend` adds several items at once. -/
theorem writes_foldlM {Entry Item : Type} (Meaning : Project → Entry → Item → Prop)
    (extend : List Item → Declaration → Declaration)
    {step : Project → Entry → Except Problem Project} {entries : List Entry}
    (known : id ∈ p.declIds) (none : ∀ data, extend [] data = data)
    (stable : ∀ r s entry item, r.Refines s → Meaning r entry item → Meaning s entry item)
    (one : ∀ r s entry, id ∈ r.declIds → step r entry = .ok s → Writes [id] r s ∧ ∃ item,
      Meaning s entry item ∧ ∀ items data, r.decl id = extend items data →
        s.decl id = extend (items ++ [item]) data)
    (returned : entries.foldlM step p = .ok q) :
    Writes [id] p q ∧ ∃ items, List.Forall₂ (Meaning q) entries items ∧
      q.decl id = extend items (p.decl id) := by
  refine foldlM_induction (fun taken r => Writes [id] p r ∧ ∃ items,
    List.Forall₂ (Meaning r) taken items ∧ r.decl id = extend items (p.decl id))
    ⟨Writes.refl _ p, [], .nil, (none _).symm⟩ ?_ returned
  rintro taken entry _ before after ⟨writes, items, meant, extended⟩ stepped
  have declared : id ∈ before.declIds := by rwa [writes.refines.declIds]
  obtain ⟨written, item, means, further⟩ := one before after entry declared stepped
  refine ⟨writes.trans written, items ++ [item], ?_, further items _ extended⟩
  apply List.rel_append
  · exact meant.imp fun entry item => stable before after entry item written.refines
  · exact .cons means .nil

theorem writes_types (edit : TypeId → Declaration → Declaration)
    (extend : List TypeId → Declaration → Declaration) {texts : List String}
    (known : id ∈ p.declIds) (outside : ∀ type data, (edit type data).unsigned = data.unsigned)
    (none : ∀ data, extend [] data = data)
    (snoc : ∀ types type data, edit type (extend types data) = extend (types ++ [type]) data)
    (returned : texts.foldlM (addType names id fun r type => r.editDecl id (edit type)) p =
      .ok q) :
    Writes [id] p q ∧ ∃ types, List.Forall₂ (Denotes names q id) texts types ∧
      q.decl id = extend types (p.decl id) := by
  apply writes_foldlM (fun r => Denotes names r id) extend known none ?_ ?_ returned
  · exact fun r s text type refines denotes => denotes.refine refines
  · intro r s text known added
    obtain ⟨writes, type, denotes, edited⟩ := writes_addType edit known outside added
    refine ⟨writes, type, denotes, ?_⟩
    intro types data extended
    rw [edited, extended, snoc]

theorem writes_overrides {keys : List String} (known : id ∈ p.declIds)
    (returned : keys.foldlM
      (fun r name => do return r.addOverride id (← find names .unknownDecl name)) p = .ok q) :
    Writes [id] p q ∧ ∃ overrides,
      List.Forall₂ (fun name other => names.lookup name = some other) keys overrides ∧
        q.decl id = { p.decl id with overrides := (p.decl id).overrides ++ overrides } := by
  apply writes_foldlM (fun _ name other => names.lookup name = some other)
    (fun items data => { data with overrides := data.overrides ++ items }) known (by simp)
    (fun _ _ _ _ _ found => found) ?_ returned
  intro r s name known added
  obtain ⟨other, found, done⟩ := bind_eq_ok.mp added
  cases done
  refine ⟨writes_editDecl r id fun _ => rfl, other, find_eq_ok.mp found, ?_⟩
  intro items data extended
  rw [Project.addOverride, decl_editDecl_self known, extended]
  simp

theorem writes_params {entries : List ParamEntry} (known : id ∈ p.declIds)
    (returned : entries.foldlM
      (fun r e => addType names id (fun r type => r.addParam id e.name type) r e.type) p =
        .ok q) :
    Writes [id] p q ∧ ∃ params,
      List.Forall₂ (fun e param => param.name = e.name ∧ Denotes names q id e.type param.type)
        entries params ∧
        q.decl id = { p.decl id with params := (p.decl id).params ++ params } := by
  apply writes_foldlM
    (fun r e param => param.name = e.name ∧ Denotes names r id e.type param.type)
    (fun items data => { data with params := data.params ++ items }) known (by simp) ?_ ?_
    returned
  · intro r s e param refines meant
    exact ⟨meant.1, meant.2.refine refines⟩
  · intro r s e known added
    obtain ⟨writes, type, denotes, edited⟩ := writes_addType
      (fun type data => { data with params := data.params ++ [⟨e.name, type⟩] })
      known (fun _ _ => rfl) added
    refine ⟨writes, ⟨e.name, type⟩, ⟨rfl, denotes⟩, ?_⟩
    intro items data extended
    rw [edited, extended]
    simp

/-- An optional entry has made one item at most. -/
theorem toList_getLast?_of_forall₂ {Entry Item : Type} {made : Entry → Item → Prop}
    {entry : Option Entry} {items : List Item} (all : List.Forall₂ made entry.toList items) :
    items.getLast?.toList = items := by
  cases entry with
  | none =>
    cases all
    rfl
  | some one =>
    cases all with
    | cons _ rest =>
      cases rest
      rfl

theorem signed_resolveHead {head : DeclHead} (known : id ∈ p.declIds)
    (blank : (p.decl id).unsigned = p.decl id)
    (returned : resolveHead names p (id, head) = .ok q) :
    Writes [id] p q ∧ Signed names q id head := by
  unfold resolveHead at returned
  obtain ⟨first, supertypes, returned⟩ := bind_eq_ok.mp returned
  obtain ⟨second, overrides, returned⟩ := bind_eq_ok.mp returned
  obtain ⟨third, params, returned⟩ := bind_eq_ok.mp returned
  obtain ⟨fourth, type, bounds⟩ := bind_eq_ok.mp returned
  obtain ⟨toFirst, supers, supersMeant, supersSet⟩ := writes_types
    (fun type data => { data with supertypes := data.supertypes ++ [type] })
    (fun types data => { data with supertypes := data.supertypes ++ types })
    known (fun _ _ => rfl) (by simp) (by simp) supertypes
  have knownFirst : id ∈ first.declIds := by rwa [toFirst.refines.declIds]
  obtain ⟨toSecond, others, othersMeant, othersSet⟩ := writes_overrides knownFirst overrides
  have knownSecond : id ∈ second.declIds := by rwa [toSecond.refines.declIds]
  obtain ⟨toThird, values, valuesMeant, valuesSet⟩ := writes_params knownSecond params
  have knownThird : id ∈ third.declIds := by rwa [toThird.refines.declIds]
  obtain ⟨toFourth, written, writtenMeant, writtenSet⟩ := writes_types
    (fun type data => { data with type := some type })
    (fun types data => { data with type := types.getLast?.or data.type })
    knownThird (fun _ _ => rfl) (by simp) (by simp) type
  have knownFourth : id ∈ fourth.declIds := by rwa [toFourth.refines.declIds]
  obtain ⟨toLast, limits, limitsMeant, limitsSet⟩ := writes_types
    (fun type data => { data with bounds := data.bounds ++ [type] })
    (fun types data => { data with bounds := data.bounds ++ types })
    knownFourth (fun _ _ => rfl) (by simp) (by simp) bounds
  have fromFourth := toLast.refines
  have fromThird := toFourth.refines.trans fromFourth
  have fromSecond := toThird.refines.trans fromThird
  have fromFirst := toSecond.refines.trans fromSecond
  refine ⟨toFirst.trans (toSecond.trans (toThird.trans (toFourth.trans toLast))), ?_⟩
  -- Nothing was there before, so what there is now are the items that were found.
  have signature : q.decl id = { p.decl id with
      supertypes := supers, overrides := others, params := values
      type := written.getLast?, bounds := limits } := by
    rw [limitsSet, writtenSet, valuesSet, othersSet, supersSet, ← blank]
    simp [Declaration.unsigned]
  constructor
  · rw [signature]
    exact supersMeant.imp fun _ _ denotes => denotes.refine fromFirst
  · rw [signature]
    exact othersMeant
  · rw [signature]
    exact valuesMeant.imp fun _ _ meant => ⟨meant.1, meant.2.refine fromThird⟩
  · rw [signature, toList_getLast?_of_forall₂ writtenMeant]
    exact writtenMeant.imp fun _ _ denotes => denotes.refine fromFourth
  · rw [signature]
    exact limitsMeant

/-- Heads are resolved one after the other, and none touches the signature of another. -/
theorem signed_resolveHeads {pending : List (DeclId × DeclHead)}
    (distinct : (pending.map Prod.fst).Nodup) (known : ∀ waiting ∈ pending, waiting.1 ∈ p.declIds)
    (blank : ∀ waiting ∈ pending, (p.decl waiting.1).unsigned = p.decl waiting.1)
    (returned : pending.foldlM (resolveHead names) p = .ok q) :
    Writes (pending.map Prod.fst) p q ∧
      ∀ waiting ∈ pending, Signed names q waiting.1 waiting.2 := by
  induction pending generalizing p with
  | nil =>
    cases returned
    exact ⟨Writes.refl _ _, fun waiting listed => absurd listed List.not_mem_nil⟩
  | cons waiting rest inductionHypothesis =>
    rw [List.foldlM_cons, bind_eq_ok] at returned
    obtain ⟨next, first, returned⟩ := returned
    obtain ⟨knownHere, knownRest⟩ := List.forall_mem_cons.mp known
    obtain ⟨blankHere, blankRest⟩ := List.forall_mem_cons.mp blank
    obtain ⟨fresh, distinctRest⟩ := List.nodup_cons.mp distinct
    obtain ⟨written, signed⟩ := signed_resolveHead knownHere blankHere first
    have apart (other : DeclId × DeclHead) (listed : other ∈ rest) :
        next.decl other.1 = p.decl other.1 := by
      apply written.others
      intro same
      exact fresh (List.mem_singleton.mp same ▸ List.mem_map_of_mem listed)
    obtain ⟨writtenRest, signedRest⟩ := inductionHypothesis distinctRest
      (fun other listed => by rw [written.refines.declIds]; exact knownRest other listed)
      (fun other listed => by rw [apart other listed]; exact blankRest other listed) returned
    refine ⟨(written.mono (by simp)).trans (writtenRest.mono (by simp)), ?_⟩
    intro other listed
    rcases List.mem_cons.mp listed with rfl | later
    · exact signed.refine writtenRest.refines (writtenRest.others _ fresh)
    · exact signedRest other later

/-- A reference leads to what its entry names, and lies in what the entry names as its source. -/
structure Refers (find : String → Option DeclId) (e : ReferenceEntry) (ref : Reference) :
    Prop where
  target : ref.target = e.target.bind find
  owner : ref.owner = e.source.bind find
  found : ∀ key, e.target = some key ∨ e.source = some key → (find key).isSome

theorem mapM_findDecl {l : Loader} {key : Option String} {id : Option DeclId}
    (returned : key.mapM l.findDecl = .ok id) :
    id = key.bind l.declNamed ∧ ∀ name, key = some name → (l.declNamed name).isSome := by
  cases key with
  | none =>
    cases returned
    exact ⟨rfl, nofun⟩
  | some name =>
    obtain ⟨other, found, done⟩ := bind_eq_ok.mp returned
    have looked : l.declNamed name = some other := find_eq_ok.mp found
    cases done
    refine ⟨looked.symm, ?_⟩
    rintro _ ⟨⟩
    simp [looked]

theorem addUnresolved_eq (p : Project) (owner : DeclId) (text : String) :
    ∃ added, p.addUnresolved owner text = { p with references := p.references.push added } ∧
      added.target = none ∧ added.owner = some owner := by
  have last {entry : Reference} {edit : Reference → Reference} :
      (p.references.push entry).modify p.references.size edit =
        p.references.push (edit entry) := by
    apply Array.ext_getElem?
    intro index
    rw [Array.getElem?_modify, Array.getElem?_push, Array.getElem?_push]
    by_cases here : index = p.references.size
    · simp [here]
    · simp [here, Ne.symm here]
  exact ⟨_, congrArg (fun references => { p with references }) last, rfl, rfl⟩

theorem refers_addReference {l after : Loader} {e : ReferenceEntry}
    (returned : l.addReference e = .ok after) :
    ∃ added, Refers l.declNamed e added ∧ after = { l with project := { l.project with
      references := l.project.references.push added } } := by
  unfold Loader.addReference at returned
  obtain ⟨target, found, returned⟩ := bind_eq_ok.mp returned
  obtain ⟨leads, known⟩ := mapM_findDecl found
  cases written : e.source with
  | none =>
    simp only [written] at returned
    obtain ⟨home, -, returned⟩ := bind_eq_ok.mp returned
    cases returned
    refine ⟨_, ⟨leads, ?_, ?_⟩, rfl⟩
    · simp [written]
    · rintro key (isTarget | isSource)
      · exact known key isTarget
      · rw [written] at isSource
        cases isSource
  | some source =>
    have both {owner : DeclId} (looked : l.declNamed source = some owner) {added : Reference}
        (leads : added.target = e.target.bind l.declNamed) (lies : added.owner = some owner) :
        Refers l.declNamed e added := by
      refine ⟨leads, ?_, ?_⟩
      · simp [lies, written, looked]
      · rintro key (isTarget | isSource)
        · exact known key isTarget
        · rw [written] at isSource
          cases isSource
          simp [looked]
    cases target with
    | some id =>
      simp only [written] at returned
      obtain ⟨owner, found, returned⟩ := bind_eq_ok.mp returned
      cases returned
      exact ⟨_, both (find_eq_ok.mp found) leads rfl, rfl⟩
    | none =>
      simp only [written] at returned
      obtain ⟨owner, found, returned⟩ := bind_eq_ok.mp returned
      cases returned
      obtain ⟨added, same, nowhere, lies⟩ := addUnresolved_eq l.project owner ""
      refine ⟨added, both (find_eq_ok.mp found) (nowhere.trans leads) lies, ?_⟩
      exact congrArg (fun project => { l with project }) same

theorem refers_addReferences {entries : List ReferenceEntry} {l after : Loader}
    (none : l.project.references = #[])
    (returned : entries.foldlM Loader.addReference l = .ok after) :
    ∃ references, after = { l with project := { l.project with references } } ∧
      List.Forall₂ (Refers l.declNamed) entries references.toList := by
  refine foldlM_induction (fun taken current => ∃ references,
    current = { l with project := { l.project with references } } ∧
      List.Forall₂ (Refers l.declNamed) taken references.toList) ⟨#[], ?_, .nil⟩ ?_ returned
  · rw [← none]
  · rintro taken e _ before after ⟨references, rfl, refer⟩ stepped
    obtain ⟨added, refers, rfl⟩ := refers_addReference stepped
    refine ⟨references.push added, rfl, ?_⟩
    rw [Array.toList_push]
    exact List.rel_append refer (.cons refers .nil)

end Manifest.Loader

end Relocation
