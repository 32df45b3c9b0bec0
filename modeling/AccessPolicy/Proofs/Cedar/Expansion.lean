import AccessPolicy.Proofs.Cedar.Members
import AccessPolicy.Proofs.Cedar.Notes
import AccessPolicy.Proofs.Cedar.Pieces

/-!
# The forward direction

A policy set can be taken to Cedar exactly if all its members are members that Cedar knows. Each
policy then becomes a block of Cedar policies for each of its principals: one for the granted
actions, which forbids if the condition denies, and one that forbids the excluded actions.

* `IsMember`: the texts that are members, and `exists_memberScope_iff`: they have scopes.
* `StandsFor`, `Names`, `IsResource`: the scopes of a member, of actions and of an object.
* `Block`: the Cedar policies of a policy for one principal.
* `Expands`: the Cedar policies of a policy.
* `split_spec`: when the forward direction succeeds, with which result, and how it fails.
-/

namespace AccessPolicy.Cedar

open Outcome

/-! ## Members -/

/-- The words that begin a member. -/
def memberWords : List String := ["user", "group", "domain", "serviceAccount"]

/-- A text is a member: everyone, every user, or a known word and an identifier on one line. -/
def IsMember (m : String) : Prop :=
  m = "any" ∨ m = "anyAuthenticated" ∨
    ∃ word ∈ memberWords, ∃ id, m = word ++ ":" ++ id ∧ IsMemberId id

/-- What a member stands for: everyone, every user, one user or service account, or those in a group
    or domain. All types are in the namespace. -/
inductive StandsFor (c : Config) : String → Scope → Prop where
  | any : StandsFor c "any" .all
  | users : StandsFor c "anyAuthenticated" (.is (c.qualify "User"))
  | user {id : String} :
    IsMemberId id → StandsFor c ("user" ++ ":" ++ id) (.eq ⟨c.qualify "User", id⟩)
  | serviceAccount {id : String} : IsMemberId id →
    StandsFor c ("serviceAccount" ++ ":" ++ id) (.eq ⟨c.qualify "ServiceAccount", id⟩)
  | group {id : String} :
    IsMemberId id → StandsFor c ("group" ++ ":" ++ id) (.within ⟨c.qualify "Group", id⟩)
  | domain {id : String} :
    IsMemberId id → StandsFor c ("domain" ++ ":" ++ id) (.within ⟨c.qualify "Domain", id⟩)

theorem exists_memberWord?_iff {word : String} :
    (∃ k : EntityKind, k.memberWord? = some word) ↔ word ∈ memberWords := by
  unfold memberWords
  simp only [List.mem_cons, List.not_mem_nil, or_false]
  constructor
  · rintro ⟨k, hk⟩
    cases k <;> simp_all [EntityKind.memberWord?]
  · rintro (rfl | rfl | rfl | rfl)
    · exact ⟨.user, rfl⟩
    · exact ⟨.group, rfl⟩
    · exact ⟨.domain, rfl⟩
    · exact ⟨.serviceAccount, rfl⟩

namespace Config

variable {c : Config}

/-- Exactly the members have scopes. -/
theorem exists_memberScope_iff {m : String} : (∃ s, c.memberScope m = .ok s) ↔ IsMember m := by
  simp only [memberScope_eq_ok_iff]
  constructor
  · rintro ⟨s, ⟨rfl, -⟩ | ⟨rfl, -⟩ | ⟨k, word, id, hword, hm, hid, hline, -⟩⟩
    · exact Or.inl rfl
    · exact Or.inr (Or.inl rfl)
    · exact Or.inr (Or.inr ⟨word, exists_memberWord?_iff.mp ⟨k, hword⟩, id, hm, hid, hline⟩)
  · rintro (rfl | rfl | ⟨word, hword, id, hm, hid, hline⟩)
    · exact ⟨_, Or.inl ⟨rfl, rfl⟩⟩
    · exact ⟨_, Or.inr (Or.inl ⟨rfl, rfl⟩)⟩
    · obtain ⟨k, hk⟩ := exists_memberWord?_iff.mpr hword
      exact ⟨_, Or.inr (Or.inr ⟨k, word, id, hk, hm, hid, hline, rfl⟩)⟩

/-- A scope is made from a member exactly if the member stands for it. -/
theorem memberScope_eq_ok_iff_standsFor {m : String} {s : Scope} :
    c.memberScope m = .ok s ↔ StandsFor c m s := by
  rw [memberScope_eq_ok_iff]
  constructor
  · rintro (⟨rfl, rfl⟩ | ⟨rfl, rfl⟩ | ⟨k, word, id, hword, rfl, hid, hline, rfl⟩)
    · exact .any
    · exact .users
    · cases k with
      | user => exact Option.some.inj hword ▸ .user ⟨hid, hline⟩
      | group => exact Option.some.inj hword ▸ .group ⟨hid, hline⟩
      | domain => exact Option.some.inj hword ▸ .domain ⟨hid, hline⟩
      | serviceAccount => exact Option.some.inj hword ▸ .serviceAccount ⟨hid, hline⟩
      | action => cases hword
  · rintro (_ | _ | ⟨hid, hline⟩ | ⟨hid, hline⟩ | ⟨hid, hline⟩ | ⟨hid, hline⟩)
    · exact Or.inl ⟨rfl, rfl⟩
    · exact Or.inr (Or.inl ⟨rfl, rfl⟩)
    · exact Or.inr (Or.inr ⟨.user, _, _, rfl, rfl, hid, hline, rfl⟩)
    · exact Or.inr (Or.inr ⟨.serviceAccount, _, _, rfl, rfl, hid, hline, rfl⟩)
    · exact Or.inr (Or.inr ⟨.group, _, _, rfl, rfl, hid, hline, rfl⟩)
    · exact Or.inr (Or.inr ⟨.domain, _, _, rfl, rfl, hid, hline, rfl⟩)

theorem kind_of_memberScope {m : String} {e : Error} (h : c.memberScope m = .error e) :
    e.kind = .format := by
  unfold memberScope at h
  split_ifs at h
  split at h
  · exact (Except.error.inj h) ▸ rfl
  · split at h
    · exact (Except.error.inj h) ▸ rfl
    · cases h

theorem forall_principals_iff {p : AccessPolicy.Policy} :
    (∀ m ∈ principals p, IsMember m) ↔ ∀ m ∈ p.subject.members, IsMember m := by
  unfold principals
  split_ifs with h
  · have hnone : p.subject.members = [] := List.isEmpty_iff.mp h
    have hany : IsMember anyMember := Or.inl rfl
    simp [hnone, hany]
  · rfl

theorem exists_expand_iff {p : AccessPolicy.Policy} :
    (∃ qs, c.expand p = .ok qs) ↔ ∀ m ∈ p.subject.members, IsMember m := by
  rw [← forall_principals_iff]
  simp only [expand_eq_ok_iff, ← exists_memberScope_iff (c := c)]
  constructor
  · rintro ⟨qs, scopes, hscopes, -⟩ m hm
    obtain ⟨s, _, hs⟩ := exists_of_mem_left hscopes hm
    exact ⟨s, hs⟩
  · intro h
    obtain ⟨scopes, hscopes⟩ := exists_forall₂ h
    exact ⟨_, scopes, hscopes, rfl⟩

theorem kind_of_expand {p : AccessPolicy.Policy} {e : Error} (h : c.expand p = .error e) :
    e.kind = .format := by
  unfold expand at h
  rw [bind_eq_error_iff, principalScopes_eq] at h
  rcases h with h | ⟨scopes, -, h⟩
  · obtain ⟨m, _, hm⟩ := exists_of_mapM_eq_error h
    exact kind_of_memberScope hm
  · cases h

end Config

/-! ## Actions and resources -/

/-- A scope names actions in order: without a limit if there are none, and a single one alone. -/
inductive Names (c : Config) : List Action → Scope → Prop where
  | all : Names c [] .all
  | one (a : Action) : Names c [a] (.eq ⟨c.qualify "Action", a.identifier⟩)
  | several (a b : Action) (as : List Action) : Names c (a :: b :: as)
    (.withinAny ((a :: b :: as).map fun a => ⟨c.qualify "Action", a.identifier⟩))

/-- The resource of a policy: everything if it has no asset, the entity that the asset is a literal
    of, and else the asset among the entities for objects. -/
inductive IsResource (c : Config) (p : AccessPolicy.Policy) : Scope → Prop where
  | all : (∀ o, p.object = some o → o.assetId = none) → IsResource c p .all
  | literal {o : Object} {asset : String} {e : EntityUid} :
    p.object = some o → o.assetId = some asset → EntityUid.ofLiteral? asset = some e →
    IsResource c p (.eq e)
  | named {o : Object} {asset : String} :
    p.object = some o → o.assetId = some asset → EntityUid.ofLiteral? asset = none →
    IsResource c p (.eq ⟨c.qualify c.resourceType, asset⟩)

theorem Names.entities_eq {c : Config} {as : List Action} {s : Scope} (h : Names c as s) :
    s.entities = as.map fun a => c.namedAction a.identifier := by
  cases h <;> rfl

namespace Config

variable {c : Config}

theorem names_actionScope (as : List Action) : Names c as (c.actionScope as) := by
  match as with
  | [] => exact .all
  | [a] => exact .one a
  | a :: b :: as => exact .several a b as

theorem isResource_resourceScope (p : AccessPolicy.Policy) :
    IsResource c p (c.resourceScope p) := by
  unfold resourceScope
  cases hasset : p.object.bind Object.assetId with
  | none => exact .all (Option.bind_eq_none_iff.mp hasset)
  | some asset =>
    obtain ⟨o, hobject, hasset⟩ := Option.bind_eq_some_iff.mp hasset
    rw [assetScope, assetEntity]
    cases hliteral : EntityUid.ofLiteral? asset with
    | none => exact .named hobject hasset hliteral
    | some e => exact .literal hobject hasset hliteral

end Config

/-! ## Blocks -/

/-- A Cedar policy of a policy for one principal covers actions of it, on its resource. -/
structure Covers (c : Config) (p : AccessPolicy.Policy) (principal : Scope) (as : List Action)
    (q : Policy) : Prop where
  principal_eq : q.principal = principal
  names : Names c as q.action
  isResource : IsResource c p q.resource
  clauses_eq : q.clauses = []

/-- The Cedar policy for the granted actions. -/
structure Grants (c : Config) (p : AccessPolicy.Policy) (principal : Scope) (q : Policy) : Prop
    extends Covers c p principal (p.actions.filter fun a => !a.exclude) q where
  forbid_iff : q.effect = .forbid ↔ ∃ cond, p.condition = some cond ∧ cond.action = .deny
  all_iff : q.action = .all ↔ p.actions = []
  annotations_eq : q.annotations = remarks p

/-- The Cedar policy for the excluded actions. -/
structure Excludes (c : Config) (p : AccessPolicy.Policy) (principal : Scope) (q : Policy) : Prop
    extends Covers c p principal (p.actions.filter Action.exclude) q where
  effect_eq : q.effect = .forbid
  action_ne : q.action ≠ .all
  annotations_eq : q.annotations = remarks p ++ [("exclude", "true")]

/-- The Cedar policies of a policy for one principal: at most one for the granted actions, and then
    at most one for the excluded ones. -/
def Block (c : Config) (p : AccessPolicy.Policy) (principal : Scope) (qs : List Policy) : Prop :=
  ∃ granted excluded : Option Policy, qs = granted.toList ++ excluded.toList ∧
    (granted.isSome ↔ (∃ a ∈ p.actions, a.exclude = false) ∨ p.actions = []) ∧
    (∀ q ∈ granted, Grants c p principal q) ∧
    (excluded.isSome ↔ ∃ a ∈ p.actions, a.exclude = true) ∧
    ∀ q ∈ excluded, Excludes c p principal q

/-- The Cedar policies of a policy: a block for each of its members, in order, or for everyone if it
    has none. -/
def Expands (c : Config) (p : AccessPolicy.Policy) (qs : List Policy) : Prop :=
  ∃ (scopes : List Scope) (blocks : List (List Policy)),
    (p.subject.members = [] → scopes = [.all]) ∧
    (p.subject.members ≠ [] → List.Forall₂ (StandsFor c) p.subject.members scopes) ∧
    List.Forall₂ (Block c p) scopes blocks ∧ qs = blocks.flatten

theorem included_eq_nil_and_excluded_eq_nil_iff {p : AccessPolicy.Policy} :
    p.included = [] ∧ p.excluded = [] ↔ p.actions = [] := by
  constructor
  · rintro ⟨hincluded, hexcluded⟩
    rw [List.eq_nil_iff_forall_not_mem]
    intro a ha
    cases hexclude : a.exclude with
    | false => exact AccessPolicy.Policy.included_ne_nil_iff.mpr ⟨a, ha, hexclude⟩ hincluded
    | true => exact AccessPolicy.Policy.excluded_ne_nil_iff.mpr ⟨a, ha, hexclude⟩ hexcluded
  · intro h
    simp [AccessPolicy.Policy.included, AccessPolicy.Policy.excluded, h]

namespace Config

variable {c : Config}

/-- The group of the granted actions stands for them unless there are only excluded ones. -/
theorem grants_piece {p : AccessPolicy.Policy} (s : Scope)
    (h : (∃ a ∈ p.actions, a.exclude = false) ∨ p.actions = []) :
    Grants c p s
      (c.piece p s ⟨Effect.ofPermit (!p.denies), c.actionScope p.included, false⟩) where
  principal_eq := piece_principal p s _
  names := by
    rw [piece_action]
    exact names_actionScope _
  isResource := by
    rw [piece_resource]
    exact isResource_resourceScope p
  clauses_eq := piece_clauses p s _
  forbid_iff := by
    rw [piece_effect, ← AccessPolicy.Policy.denies_iff]
    cases p.denies <;> simp [Effect.ofPermit]
  all_iff := by
    rw [piece_action, actionScope_eq_all_iff]
    constructor
    · intro hnone
      exact h.resolve_left fun hsome => AccessPolicy.Policy.included_ne_nil_iff.mpr hsome hnone
    · exact fun hnone => (included_eq_nil_and_excluded_eq_nil_iff.mpr hnone).1
  annotations_eq := annotationsFor_eq p

/-- The group of the excluded actions stands for them, if there are any. -/
theorem excludes_piece {p : AccessPolicy.Policy} (s : Scope)
    (h : ∃ a ∈ p.actions, a.exclude = true) :
    Excludes c p s (c.piece p s ⟨.forbid, c.actionScope p.excluded, true⟩) where
  principal_eq := piece_principal p s _
  names := by
    rw [piece_action]
    exact names_actionScope _
  isResource := by
    rw [piece_resource]
    exact isResource_resourceScope p
  clauses_eq := piece_clauses p s _
  effect_eq := piece_effect p s _
  action_ne := by
    rw [piece_action, Ne, actionScope_eq_all_iff]
    exact AccessPolicy.Policy.excluded_ne_nil_iff.mpr h
  annotations_eq := by
    rw [← annotationsFor_eq]
    exact Fields.set_eq_append fun a => ne_excludeKey_of_mem_annotationsFor

/-- The groups of actions of a policy make a block for each principal. -/
theorem block_groups (p : AccessPolicy.Policy) (s : Scope) :
    Block c p s ((c.groups p).map (c.piece p s)) := by
  have hnone := included_eq_nil_and_excluded_eq_nil_iff (p := p)
  by_cases hexcluded : p.excluded = []
  · have hno : ¬ ∃ a ∈ p.actions, a.exclude = true :=
      fun h => AccessPolicy.Policy.excluded_ne_nil_iff.mpr h hexcluded
    have hgranted : (∃ a ∈ p.actions, a.exclude = false) ∨ p.actions = [] := by
      rw [← AccessPolicy.Policy.included_ne_nil_iff]
      by_cases hincluded : p.included = []
      · exact Or.inr (hnone.mp ⟨hincluded, hexcluded⟩)
      · exact Or.inl hincluded
    rw [groups_of_excluded_eq_nil hexcluded]
    exact ⟨some _, none, rfl, iff_of_true rfl hgranted,
      fun q hq => Option.mem_some_iff.mp hq ▸ grants_piece s hgranted,
      iff_of_false Bool.false_ne_true hno, by simp⟩
  · have hyes := AccessPolicy.Policy.excluded_ne_nil_iff.mp hexcluded
    have hactions : p.actions ≠ [] := fun h => hexcluded (hnone.mpr h).2
    by_cases hincluded : p.included = []
    · have hno : ¬ ∃ a ∈ p.actions, a.exclude = false :=
        fun h => AccessPolicy.Policy.included_ne_nil_iff.mpr h hincluded
      rw [groups_of_included_eq_nil hincluded hexcluded]
      exact ⟨none, some _, rfl, iff_of_false Bool.false_ne_true (not_or.mpr ⟨hno, hactions⟩),
        by simp, iff_of_true rfl hyes,
        fun q hq => Option.mem_some_iff.mp hq ▸ excludes_piece s hyes⟩
    · have hgranted := AccessPolicy.Policy.included_ne_nil_iff.mp hincluded
      rw [groups_of_ne_nil hincluded hexcluded]
      exact ⟨some _, some _, rfl, iff_of_true rfl (Or.inl hgranted),
        fun q hq => Option.mem_some_iff.mp hq ▸ grants_piece s (Or.inl hgranted),
        iff_of_true rfl hyes, fun q hq => Option.mem_some_iff.mp hq ▸ excludes_piece s hyes⟩

theorem expands_of_expand {p : AccessPolicy.Policy} {qs : List Policy}
    (h : c.expand p = .ok qs) : Expands c p qs := by
  obtain ⟨scopes, hscopes, rfl⟩ := expand_eq_ok_iff.mp h
  refine ⟨scopes, scopes.map fun s => (c.groups p).map (c.piece p s), fun hnone => ?_,
    fun hsome => ?_, ?_, List.flatMap_def⟩
  · have hany : principals p = [anyMember] := by
      unfold principals
      rw [hnone]
      rfl
    rw [hany, List.forall₂_cons_left_iff] at hscopes
    obtain ⟨s, rest, hs, hrest, rfl⟩ := hscopes
    rw [List.forall₂_nil_left_iff.mp hrest, ← Except.ok.inj hs]
  · have hmembers : principals p = p.subject.members := by
      unfold principals
      rw [if_neg (by simpa using hsome)]
    rw [hmembers] at hscopes
    exact hscopes.imp fun m s => memberScope_eq_ok_iff_standsFor.mp
  · rw [List.forall₂_map_right_iff, List.forall₂_same]
    exact fun s _ => block_groups p s

/-! ## Policy sets -/

theorem exists_split_iff {ps : PolicySet} :
    (∃ qs, c.split ps = .ok qs) ↔ ∀ p ∈ ps, ∀ m ∈ p.subject.members, IsMember m := by
  induction ps with
  | nil => exact iff_of_true ⟨[], rfl⟩ (by simp)
  | cons p ps ih =>
    rw [List.forall_mem_cons, ← exists_expand_iff (c := c), ← ih]
    simp only [split_cons_eq_ok_iff]
    constructor
    · rintro ⟨qs, first, others, hfirst, hothers, -⟩
      exact ⟨⟨first, hfirst⟩, others, hothers⟩
    · rintro ⟨⟨first, hfirst⟩, others, hothers⟩
      exact ⟨_, first, others, hfirst, hothers, rfl⟩

theorem kind_of_split {ps : PolicySet} {e : Error} (h : c.split ps = .error e) :
    e.kind = .format := by
  induction ps with
  | nil => cases h
  | cons p ps ih =>
    rw [split, bind_eq_error_iff] at h
    rcases h with hp | ⟨first, -, h⟩
    · exact kind_of_expand hp
    · rcases bind_eq_error_iff.mp h with hps | ⟨others, -, hpure⟩
      · exact ih hps
      · cases hpure

theorem exists_parts_of_split {ps : PolicySet} {qs : List Policy} (h : c.split ps = .ok qs) :
    ∃ parts, List.Forall₂ (Expands c) ps parts ∧ qs = parts.flatten := by
  induction ps generalizing qs with
  | nil => exact ⟨[], .nil, (Except.ok.inj h).symm⟩
  | cons p ps ih =>
    obtain ⟨first, others, hfirst, hothers, rfl⟩ := split_cons_eq_ok_iff.mp h
    obtain ⟨parts, hparts, rfl⟩ := ih hothers
    exact ⟨first :: parts, .cons (expands_of_expand hfirst) hparts, rfl⟩

end Config

/-- What a block permits are granted actions of a policy that does not deny. -/
theorem Block.of_permit {c : Config} {p : AccessPolicy.Policy} {s : Scope} {qs : List Policy}
    (h : Block c p s qs) {q : Policy} (hq : q ∈ qs) (heffect : q.effect = .permit) :
    Grants c p s q := by
  obtain ⟨granted, excluded, rfl, -, hgrants, -, hexcludes⟩ := h
  rcases List.mem_append.mp hq with hq | hq
  · exact hgrants q (Option.mem_toList.mp hq)
  · rw [(hexcludes q (Option.mem_toList.mp hq)).effect_eq] at heffect
    cases heffect

theorem Expands.exists_block {c : Config} {p : AccessPolicy.Policy} {qs : List Policy}
    (h : Expands c p qs) {q : Policy} (hq : q ∈ qs) : ∃ s block, Block c p s block ∧ q ∈ block := by
  obtain ⟨scopes, blocks, -, -, hblocks, rfl⟩ := h
  obtain ⟨block, hblock, hq⟩ := List.mem_flatten.mp hq
  obtain ⟨s, -, hs⟩ := exists_of_mem_right hblocks hblock
  exact ⟨s, block, hs, hq⟩

namespace Config

/-- **The forward direction.** A policy set can be taken to Cedar exactly if all its members are
    members, and fails for their format if not. The result is made of the blocks of its policies,
    in order. What it permits is granted by a policy that does not deny, and everything only by one
    without actions. -/
theorem split_spec (c : Config) (ps : PolicySet) :
    ((∃ qs, c.split ps = .ok qs) ↔ ∀ p ∈ ps, ∀ m ∈ p.subject.members, IsMember m) ∧
      (∀ e, c.split ps = .error e → e.kind = .format) ∧
      ∀ qs, c.split ps = .ok qs →
        (∃ parts, List.Forall₂ (Expands c) ps parts ∧ qs = parts.flatten) ∧
        ∀ q ∈ qs, q.effect = .permit → ∃ p ∈ ps,
          (∀ cond, p.condition = some cond → cond.action ≠ .deny) ∧
          (∀ e ∈ q.action.entities, ∃ a ∈ p.actions, a.exclude = false ∧
            e = ⟨c.qualify "Action", a.identifier⟩) ∧
          (q.action = .all → p.actions = []) := by
  refine ⟨exists_split_iff, fun e => kind_of_split, fun qs h => ?_⟩
  obtain ⟨parts, hparts, rfl⟩ := exists_parts_of_split h
  refine ⟨⟨parts, hparts, rfl⟩, fun q hq heffect => ?_⟩
  obtain ⟨part, hpart, hq⟩ := List.mem_flatten.mp hq
  obtain ⟨p, hp, hexpands⟩ := exists_of_mem_right hparts hpart
  obtain ⟨s, block, hblock, hq⟩ := hexpands.exists_block hq
  have hgrants := hblock.of_permit hq heffect
  refine ⟨p, hp, fun cond hcond hdeny => ?_, fun e he => ?_, hgrants.all_iff.mp⟩
  · rw [hgrants.forbid_iff.mpr ⟨cond, hcond, hdeny⟩] at heffect
    cases heffect
  · rw [hgrants.names.entities_eq] at he
    obtain ⟨a, ha, rfl⟩ := List.mem_map.mp he
    obtain ⟨hmem, hexclude⟩ := List.mem_filter.mp ha
    exact ⟨a, hmem, by simpa using hexclude, rfl⟩

/-- Alice and the staff may not view or list an album late and may not edit it at all, everyone may
    do everything with a photo, and no user may delete anything. -/
def albumRules : PolicySet :=
  [{ id := some "late", info := { version := some "2" }
     subject := { type := some "team", members := ["user:alice", "group:staff"] }
     actions := [⟨"edit", "", true⟩, ⟨"View", "view", false⟩, ⟨"list", "", false⟩]
     object := some ⟨some "summer", some "/*"⟩
     condition := some ⟨"context.late", .deny⟩ },
   { object := some ⟨some "Photo::\"beach\"", none⟩ },
   { subject := { members := ["anyAuthenticated"] }, actions := [⟨"Remove", "delete", true⟩] }]

/-- These rules in a namespace, where albums are the objects. A member without an identifier makes a
    set fail. -/
theorem split_spec_albumRules :
    let c : Config := { ns := some "Org", resourceType := "Album" }
    let notes : List (String × String) :=
      [("id", "late"), ("version", "2"), ("subjectType", "team"), ("pathSpec", "/*"),
       ("condition", "context.late"), ("conditionAction", "deny")]
    let late (principal : Scope) : List Policy :=
      [{ effect := .forbid, annotations := notes, principal
         action := .withinAny [⟨"Org::Action", "view"⟩, ⟨"Org::Action", "list"⟩]
         resource := .eq ⟨"Org::Album", "summer"⟩ },
       { effect := .forbid, annotations := notes ++ [("exclude", "true")], principal
         action := .eq ⟨"Org::Action", "edit"⟩, resource := .eq ⟨"Org::Album", "summer"⟩ }]
    let parts : List (List Policy) :=
      [late (.eq ⟨"Org::User", "alice"⟩) ++ late (.within ⟨"Org::Group", "staff"⟩),
       [{ effect := .permit, resource := .eq ⟨"Photo", "beach"⟩ }],
       [{ effect := .forbid, annotations := [("exclude", "true")], principal := .is "Org::User"
          action := .eq ⟨"Org::Action", "delete"⟩ }]]
    c.split albumRules = .ok parts.flatten ∧
      (∃ blocks, List.Forall₂ (Expands c) albumRules blocks ∧ parts.flatten = blocks.flatten) ∧
      (∀ p ∈ albumRules, ∀ m ∈ p.subject.members, IsMember m) ∧ ¬ IsMember "user:" ∧
      ∃ e, c.split [{ subject := { members := ["user:"] } }] = .error e ∧ e.kind = .format := by
  intro c notes late parts
  have hok : c.split albumRules = .ok parts.flatten := by decide
  obtain ⟨e, he⟩ : ∃ e, c.split [{ subject := { members := ["user:"] } }] = .error e := ⟨_, rfl⟩
  refine ⟨hok, ((split_spec c albumRules).2.2 _ hok).1, (split_spec c albumRules).1.mp ⟨_, hok⟩,
    fun hmember => ?_, e, he, (split_spec c _).2.1 e he⟩
  obtain ⟨qs, hqs⟩ := (split_spec c [{ subject := { members := ["user:"] } }]).1.mpr
    (by simpa using hmember)
  rw [he] at hqs
  cases hqs

end Config

end AccessPolicy.Cedar
