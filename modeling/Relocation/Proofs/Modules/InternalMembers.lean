import Mathlib.Data.List.Perm.Subperm
import Mathlib.Logic.Relation
import Relocation.Proofs.Check.Run
import Relocation.Proofs.Project.Children
import Relocation.Proofs.Project.Search
set_option autoImplicit false

/-!
Uses of internal members from modules that will not see them.

The members of a class are gathered through the classes nested in it, as deep as there are
declarations. A declaration is made after what it lies in, so each level has a greater index than
the one around it, and no body is deeper than that. The references are looked up from the members;
since a reference has one target, it is found from one member at most.
-/

namespace Relocation

namespace Project

variable {p : Project}

variable (p) in
/-- A declaration stands directly in the body of a class. -/
def IsMemberOf (id owner : DeclId) : Prop :=
  (p.decl id).parent = .decl owner ∧ (p.decl owner).kind.isClassLike = true

variable (p) in
/-- A declaration stands in the body of a class, or of a class nested in it through classes. -/
def InBody : DeclId → DeclId → Prop := Relation.TransGen p.IsMemberOf

theorem InBody.isClassLike {id root : DeclId} (inside : p.InBody id root) :
    (p.decl root).kind.isClassLike = true := by
  cases inside with
  | single direct => exact direct.2
  | tail _ direct => exact direct.2

theorem InBody.known {id root : DeclId} (inside : p.InBody id root) : id ∈ p.declIds := by
  obtain ⟨_, direct, -⟩ := Relation.TransGen.head'_iff.mp inside
  exact mem_declIds_of_owner direct.1

theorem Ordered.index_lt_of_inBody (ordered : p.Ordered) {id root : DeclId}
    (inside : p.InBody id root) : root.index < id.index := by
  induction inside with
  | single direct => exact ordered.owner _ _ direct.1
  | tail _ direct inductionHypothesis =>
    exact Nat.lt_trans (ordered.owner _ _ direct.1) inductionHypothesis

theorem ListsAll.inBody_of_mem_internalMembersWithin (all : p.ListsAll) {depth : Nat}
    {root id : DeclId} (classLike : (p.decl root).kind.isClassLike = true)
    (found : id ∈ p.internalMembersWithin depth root) :
    (p.decl id).visibility = .internal ∧ p.InBody id root := by
  induction depth generalizing root with
  | zero => cases found
  | succ depth inductionHypothesis =>
    rcases List.mem_append.mp found with here | below
    · obtain ⟨listed, internal⟩ := List.mem_filter.mp here
      exact ⟨eq_of_beq internal, .single ⟨all.mem_members_iff.mp listed, classLike⟩⟩
    · obtain ⟨nested, listed, found⟩ := List.mem_flatMap.mp below
      obtain ⟨listed, nestedClass⟩ := List.mem_filter.mp listed
      obtain ⟨internal, inside⟩ := inductionHypothesis nestedClass found
      exact ⟨internal, inside.tail ⟨all.mem_members_iff.mp listed, classLike⟩⟩

/-- What stands in the body is gathered if there are as many steps as indexes up to it. -/
theorem mem_internalMembersWithin_of_inBody (all : p.ListsAll) (ordered : p.Ordered)
    {depth : Nat} {root id : DeclId} (internal : (p.decl id).visibility = .internal)
    (inside : p.InBody id root) (deep : id.index ≤ root.index + depth) :
    id ∈ p.internalMembersWithin depth root := by
  induction depth generalizing root with
  | zero =>
    have below := ordered.index_lt_of_inBody inside
    omega
  | succ depth inductionHypothesis =>
    apply List.mem_append.mpr
    cases inside with
    | single direct =>
      apply Or.inl
      exact List.mem_filter.mpr ⟨all.mem_members_iff.mpr direct.1, beq_iff_eq.mpr internal⟩
    | tail inside direct =>
      -- One step is spent on the outermost class, and the next one has a greater index.
      apply Or.inr
      have later := ordered.owner _ _ direct.1
      exact List.mem_flatMap.mpr ⟨_,
        List.mem_filter.mpr ⟨all.mem_members_iff.mpr direct.1, InBody.isClassLike inside⟩,
        inductionHypothesis inside (by omega)⟩

theorem Built.mem_internalMembers_iff (built : p.Built) {root id : DeclId}
    (classLike : (p.decl root).kind.isClassLike = true) :
    id ∈ p.internalMembers root ↔ (p.decl id).visibility = .internal ∧ p.InBody id root := by
  constructor
  · exact built.listsAll.inBody_of_mem_internalMembersWithin classLike
  · rintro ⟨internal, inside⟩
    apply mem_internalMembersWithin_of_inBody built.listsAll built.ordered internal inside
    have known := p.mem_declIds.mp inside.known
    unfold declDepth
    omega

end Project

namespace Pass

variable {pass : Pass}

theorem mem_movedInternalMembers_iff (built : pass.project.Built) {id : DeclId} :
    id ∈ pass.movedInternalMembers ↔
      (pass.project.decl id).visibility = .internal ∧
        ∃ element ∈ pass.elements, pass.project.InBody id element := by
  simp only [movedInternalMembers, List.mem_eraseDups, List.mem_flatMap, List.mem_filter]
  constructor
  · rintro ⟨element, ⟨moved, classLike⟩, found⟩
    obtain ⟨internal, inside⟩ := (built.mem_internalMembers_iff classLike).mp found
    exact ⟨internal, element, moved, inside⟩
  · rintro ⟨internal, element, moved, inside⟩
    have classLike := inside.isClassLike
    exact ⟨element, ⟨moved, classLike⟩,
      (built.mem_internalMembers_iff classLike).mpr ⟨internal, inside⟩⟩

variable (pass)

/-- A reference stays in a module that will not see the internal member that it refers to: neither
the module of the target nor one that implements it. -/
structure LosesMember (id : RefId) (member : DeclId) : Prop where
  resolved : (pass.project.reference id).target = some member
  internal : (pass.project.decl member).visibility = .internal
  moves : ∃ element ∈ pass.elements, pass.project.InBody member element
  foreign : ∃ module home, pass.targetModule? = some module ∧
    pass.project.moduleOfFile? (pass.project.reference id).file = some home ∧ home ≠ module ∧
    pass.project.implementsModule home module = false
  stays : pass.isMoving (.reference id) = false

def memberFinding (id : RefId) (member : DeclId) : Finding :=
  (.reference id, Message.internalInaccessible.conflict [
    pass.describeUsage id, pass.describeDecl member])

def memberUses (id : RefId) (findings : List Finding) : List Finding :=
  findings.filter fun finding => finding.1 == .reference id && finding.2.code == 1102

/-- Of a reference that loses a member there is one finding, and of any other none. -/
structure ReportsLostMember (id : RefId) (findings : List Finding) : Prop where
  found : (∃ finding, finding ∈ memberUses id findings) ↔ ∃ member, pass.LosesMember id member
  once : ∀ member, pass.LosesMember id member →
    memberUses id findings = [pass.memberFinding id member]

variable {pass}

theorem mem_memberUses {id : RefId} {findings : List Finding} {finding : Finding} :
    finding ∈ memberUses id findings ↔
      finding ∈ findings ∧ finding.1 = .reference id ∧ finding.2.code = 1102 := by
  simp [memberUses]

theorem mem_foreignReferences_iff_losesMember (built : pass.project.Built)
    (searched : pass.services = pass.project.services) {finding : Finding} :
    finding ∈ pass.foreignReferences ↔
      ∃ id member, pass.LosesMember id member ∧ finding = pass.memberFinding id member := by
  rw [pass.mem_foreignReferences_iff]
  constructor
  · rintro ⟨module, targeted, member, moved, id, referring, found⟩
    obtain ⟨internal, moves⟩ := (mem_movedInternalMembers_iff built).mp moved
    obtain ⟨home, located, other, unrelated, stays, shape⟩ :=
      pass.foreignReference?_eq_some_iff.mp found
    rw [searched] at referring
    have resolved := (pass.project.mem_referencesTo referring).2
    exact ⟨id, member, ⟨resolved, internal, moves,
      ⟨module, home, targeted, located, other, unrelated⟩, stays⟩, shape⟩
  · rintro ⟨id, member, loses, shape⟩
    obtain ⟨module, home, targeted, located, other, unrelated⟩ := loses.foreign
    have known := built.listed.target id member loses.resolved
    refine ⟨module, targeted, member,
      (mem_movedInternalMembers_iff built).mpr ⟨loses.internal, loses.moves⟩, id, ?_, ?_⟩
    · rw [searched, pass.project.referencesTo_eq known, List.mem_filter, beq_iff_eq]
      exact ⟨Project.mem_refIds_of_target loses.resolved, loses.resolved⟩
    · exact pass.foreignReference?_eq_some_iff.mpr
        ⟨home, located, other, unrelated, loses.stays, shape⟩

/-- A reference refers to one member, so nothing is found twice. -/
theorem nodup_foreignReferences (searched : pass.services = pass.project.services) :
    pass.foreignReferences.Nodup := by
  unfold foreignReferences
  cases pass.targetModule? with
  | none => exact List.nodup_nil
  | some module =>
    apply List.nodup_flatMap.mpr
    constructor
    -- Of one member each reference gives a finding of its own.
    · intro member _
      rw [searched]
      apply (pass.project.nodup_referencesTo member).filterMap
      intro one other finding ofOne ofOther
      obtain ⟨_, -, -, -, -, rfl⟩ := pass.foreignReference?_eq_some_iff.mp ofOne
      obtain ⟨_, -, -, -, -, same⟩ := pass.foreignReference?_eq_some_iff.mp ofOther
      exact Element.reference.inj (congrArg Prod.fst same)
    -- A finding of two members would be about a reference with two targets.
    · apply (Repetition.nodup_eraseDups _).imp
      intro one other apart finding inOne inOther
      obtain ⟨id, referring, found⟩ := List.mem_filterMap.mp inOne
      obtain ⟨again, alsoReferring, alsoFound⟩ := List.mem_filterMap.mp inOther
      obtain ⟨_, -, -, -, -, rfl⟩ := pass.foreignReference?_eq_some_iff.mp found
      obtain ⟨_, -, -, -, -, same⟩ := pass.foreignReference?_eq_some_iff.mp alsoFound
      cases Element.reference.inj (congrArg Prod.fst same)
      rw [searched] at referring alsoReferring
      have resolved := (pass.project.mem_referencesTo referring).2
      have alsoResolved := (pass.project.mem_referencesTo alsoReferring).2
      exact apart (Option.some.inj (resolved.symm.trans alsoResolved))

theorem reportsLostMember_of_nodup (built : pass.project.Built)
    (searched : pass.services = pass.project.services) (id : RefId) {findings : List Finding}
    (distinct : findings.Nodup) (detected : ∀ finding : Finding, finding.2.code = 1102 →
      (finding ∈ findings ↔ finding ∈ pass.foreignReferences)) :
    pass.ReportsLostMember id findings := by
  have uses (finding : Finding) : finding ∈ memberUses id findings ↔
      ∃ member, pass.LosesMember id member ∧ finding = pass.memberFinding id member := by
    rw [mem_memberUses]
    constructor
    · rintro ⟨listed, keyed, code⟩
      obtain ⟨_, member, loses, rfl⟩ :=
        (mem_foreignReferences_iff_losesMember built searched).mp ((detected _ code).mp listed)
      cases keyed
      exact ⟨member, loses, rfl⟩
    · rintro ⟨member, loses, rfl⟩
      refine ⟨(detected _ rfl).mpr ?_, rfl, rfl⟩
      exact (mem_foreignReferences_iff_losesMember built searched).mpr ⟨id, member, loses, rfl⟩
  constructor
  · constructor
    · rintro ⟨finding, listed⟩
      obtain ⟨member, loses, -⟩ := (uses finding).mp listed
      exact ⟨member, loses⟩
    · rintro ⟨member, loses⟩
      exact ⟨_, (uses _).mpr ⟨member, loses, rfl⟩⟩
  · intro member loses
    apply List.perm_singleton.mp
    apply (List.perm_ext_iff_of_nodup (distinct.filter _) (List.nodup_singleton _)).mpr
    intro finding
    rw [List.mem_singleton]
    constructor
    · intro listed
      obtain ⟨other, otherLoses, rfl⟩ := (uses finding).mp listed
      cases loses.resolved.symm.trans otherLoses.resolved
      rfl
    · rintro rfl
      exact (uses _).mpr ⟨member, loses, rfl⟩

/-- The detector reports every reference that loses an internal member once, and no other
reference. So does a run that starts from an empty report, whatever the usages. -/
theorem lost_members_reported_once (pass : Pass) (built : pass.project.Built)
    (searched : pass.services = pass.project.services) (id : RefId) :
    pass.ReportsLostMember id pass.foreignReferences ∧
      ∀ external internal after, pass.check { external, internal } = .ok after →
        pass.ReportsLostMember id after.report.findings := by
  constructor
  · exact reportsLostMember_of_nodup built searched id (nodup_foreignReferences searched)
      fun _ _ => Iff.rfl
  · intro external internal after returned
    apply reportsLostMember_of_nodup built searched id
    · obtain ⟨later, -, rfl⟩ := (pass.check_eq_ok_iff _ _).mp returned
      exact (Report.tidy_empty.pushAll _).nodup_findings
    · intro finding code
      rw [mem_findings_of_check_foreign returned code]
      exact or_iff_right List.not_mem_nil

end Pass

/-- Module `core`, which depends on `other`, has a class `Service` with an internal function `token`
and, in the class `Config` nested in it, an internal property `key`. Its function `user` uses both. -/
def serviceCalls : List BuilderCall := [
  .module "core" .jvm, .module "other" .jvm, .dependency ⟨0⟩ ⟨1⟩,
  .directory "core/a" (.module ⟨0⟩ false) ⟨"a"⟩, .directory "other/a" (.module ⟨1⟩ false) ⟨"a"⟩,
  .file ⟨0⟩ "Service.kt" none, .file ⟨0⟩ "User.kt" none,
  .decl { name := "Service", kind := .plainClass, parent := .file ⟨0⟩ },
  .decl { name := "token", kind := .function, parent := .decl ⟨0⟩, visibility := .internal },
  .decl { name := "Config", kind := .plainClass, parent := .decl ⟨0⟩ },
  .decl { name := "key", kind := .property, parent := .decl ⟨2⟩, visibility := .internal },
  .decl { name := "user", kind := .function, parent := .file ⟨1⟩ },
  .referenceFrom ⟨4⟩ ⟨1⟩ {}, .referenceFrom ⟨4⟩ ⟨3⟩ {}]

def service : Project := (Project.run? {} serviceCalls).getD {}

def moveService : Pass :=
  .ofDecls service service.services {} (.directory ⟨1⟩ ⟨"a"⟩) [⟨0⟩, ⟨2⟩]

theorem losesMember_moveService : moveService.LosesMember ⟨1⟩ ⟨3⟩ where
  resolved := rfl
  internal := rfl
  moves := by
    refine ⟨⟨0⟩, List.mem_cons_self, ?_⟩
    have inner : service.IsMemberOf ⟨3⟩ ⟨2⟩ := ⟨rfl, rfl⟩
    have outer : service.IsMemberOf ⟨2⟩ ⟨0⟩ := ⟨rfl, rfl⟩
    exact .tail (.single inner) outer
  foreign := ⟨⟨1⟩, ⟨0⟩, rfl, rfl, by decide, rfl⟩
  stays := by decide +kernel

/-- `key` is found in the body of `Service` and in that of `Config`, and its use is reported
once. -/
theorem reported_once_moveService :
    (service.Built ∧ moveService.services = service.services) ∧
      Pass.memberUses ⟨1⟩ moveService.foreignReferences = [moveService.memberFinding ⟨1⟩ ⟨3⟩] ∧
      ∃ after, moveService.check {} = .ok after ∧
        Pass.memberUses ⟨1⟩ after.report.findings = [(.reference ⟨1⟩, ⟨1102, .error,
          "Function user() uses internal property key which will be inaccessible after move"⟩)] := by
  have built : service.Built := ⟨serviceCalls, rfl⟩
  obtain ⟨detected, ran⟩ := Pass.lost_members_reported_once moveService built rfl ⟨1⟩
  have notSealed : moveService.hierarchyFindings = .ok [] := by decide +kernel
  obtain ⟨after, returned⟩ := (moveService.check_returns_iff {}).mpr ⟨[], notSealed⟩
  have said : moveService.memberFinding ⟨1⟩ ⟨3⟩ = (.reference ⟨1⟩, ⟨1102, .error,
      "Function user() uses internal property key which will be inaccessible after move"⟩) := by
    decide +kernel
  refine ⟨⟨built, rfl⟩, detected.once _ losesMember_moveService, after, returned, ?_⟩
  rw [(ran [] [] after returned).once _ losesMember_moveService, said]

end Relocation
