import AccessPolicy.Cedar.Mapping
import AccessPolicy.Proofs.Outcome

/-!
# Scopes and what they stand for

Members stand for scopes of principals, identifiers for scopes of actions and assets for scopes of
resources, each with entity types in the namespace of the configuration.

* `unqualify?_eq_some_iff`, `kind?_eq_some_iff`: the types in the namespace.
* `splitMember?_eq_some_iff`: the texts that are a word and an identifier.
* `scopeMember_of_memberScope`, `eq_of_memberScope`: a member and its scope determine each other.
* `scopeActions_actionScope`, `entities_of_scopeActions`: the actions of a scope, both ways.
* `scopeAsset_assetScope`: the asset that a scope made from an asset reads back as.
-/

namespace AccessPolicy.Cedar

open Outcome

/-! ## Types in the namespace -/

namespace Config

variable {c : Config}

theorem unqualify?_eq_some_iff {type name : String} :
    c.unqualify? type = some name ↔ type = c.qualify name := by
  unfold unqualify? qualify Cedar.qualify
  cases c.ns with
  | none => simp
  | some ns =>
    by_cases hns : ns = ""
    · simp [hns]
    · simp only [if_neg hns, Option.map_eq_some_iff, Text.after?_eq_some_iff]
      constructor
      · rintro ⟨rest, hrest, rfl⟩
        rw [← String.toList_inj, hrest]
        simp
      · rintro rfl
        exact ⟨name.toList, String.toList_append, String.ofList_toList⟩

@[simp]
theorem unqualify?_qualify (name : String) : c.unqualify? (c.qualify name) = some name :=
  unqualify?_eq_some_iff.mpr rfl

end Config

namespace EntityKind

theorem ofName?_eq_some_iff {s : String} {k : EntityKind} : ofName? s = some k ↔ k.name = s := by
  constructor
  · intro h
    simpa using List.find?_some h
  · rintro rfl
    exact ofName?_name k

theorem ofMemberWord?_eq_some_iff {s : String} {k : EntityKind} :
    ofMemberWord? s = some k ↔ k.memberWord? = some s := by
  constructor
  · intro h
    simpa using List.find?_some h
  · exact ofMemberWord?_memberWord

/-- The words of members are letters. -/
theorem isAlpha_of_memberWord? {k : EntityKind} {w : String} (h : k.memberWord? = some w) :
    w ≠ "" ∧ ∀ ch ∈ w.toList, ch.isAlpha := by
  rw [← List.all_eq_true]
  cases k <;> simp only [memberWord?, Option.some.injEq, reduceCtorEq] at h <;> subst h <;> decide

end EntityKind

namespace Config

variable {c : Config}

theorem kind?_eq_some_iff {type : String} {k : EntityKind} :
    c.kind? type = some k ↔ type = c.qualify k.name := by
  unfold kind?
  rw [Option.bind_eq_some_iff]
  simp only [unqualify?_eq_some_iff, EntityKind.ofName?_eq_some_iff]
  constructor
  · rintro ⟨_, rfl, rfl⟩
    rfl
  · rintro rfl
    exact ⟨_, rfl, rfl⟩

end Config

/-! ## Members -/

theorem splitMember?_eq_some_iff {member word id : String} :
    splitMember? member = some (word, id) ↔
      member = word ++ ":" ++ id ∧ word ≠ "" ∧ (∀ ch ∈ word.toList, ch.isAlpha) ∧
        id ≠ "" ∧ '\n' ∉ id.toList := by
  have hne : ∀ s : String, s ≠ "" ↔ s.toList ≠ [] := by
    intro s
    rw [Ne, Ne, ← String.toList_inj, String.toList_empty]
  constructor
  · intro h
    unfold splitMember? at h
    split at h
    · rename_i rest hrest
      dsimp only at h
      split_ifs at h with hok
      obtain ⟨rfl, rfl⟩ := Prod.mk.inj (Option.some.inj h)
      obtain ⟨hword, hid, hline⟩ := hok
      refine ⟨?_, ?_, ?_, ?_, ?_⟩
      · rw [← String.toList_inj]
        simp only [String.toList_append, String.toList_ofList]
        conv_lhs => rw [← List.takeWhile_append_dropWhile (p := Char.isAlpha) (l := member.toList)]
        rw [hrest]
        simp
      · rwa [hne, String.toList_ofList]
      · rw [String.toList_ofList]
        exact List.all_eq_true.mp List.all_takeWhile
      · rwa [hne, String.toList_ofList]
      · rwa [String.toList_ofList]
    · cases h
  · rintro ⟨rfl, hword, hletters, hid, hline⟩
    have hlist : (word ++ ":" ++ id).toList = word.toList ++ ':' :: id.toList := by simp
    unfold splitMember?
    simp only [hlist]
    rw [List.takeWhile_append_of_pos hletters, List.dropWhile_append_of_pos hletters]
    rw [hne] at hword hid
    simp [hword, hid, hline]

/-- A text is in at most one way a word of letters, a colon and a rest. -/
theorem word_colon_inj {v w i j : String} (hv : ∀ ch ∈ v.toList, ch.isAlpha)
    (hw : ∀ ch ∈ w.toList, ch.isAlpha) (h : v ++ ":" ++ i = w ++ ":" ++ j) : v = w ∧ i = j := by
  have hlist : v.toList ++ ':' :: i.toList = w.toList ++ ':' :: j.toList := by
    simpa using congrArg String.toList h
  have hword := congrArg (List.takeWhile Char.isAlpha) hlist
  have hrest := congrArg (List.dropWhile Char.isAlpha) hlist
  rw [List.takeWhile_append_of_pos hv, List.takeWhile_append_of_pos hw] at hword
  rw [List.dropWhile_append_of_pos hv, List.dropWhile_append_of_pos hw] at hrest
  constructor
  · rw [← String.toList_inj]
    simpa using hword
  · rw [← String.toList_inj]
    simpa using hrest

/-- A text with a colon is neither of the two members without one. -/
theorem word_colon_ne (w i : String) :
    w ++ ":" ++ i ≠ anyMember ∧ w ++ ":" ++ i ≠ anyUserMember := by
  have hcolon : ':' ∈ (w ++ ":" ++ i).toList := by simp
  constructor
  · intro h
    rw [h] at hcolon
    revert hcolon
    decide
  · intro h
    rw [h] at hcolon
    revert hcolon
    decide

/-- The scope of an entity as a member: containers stand for those in them. -/
def EntityKind.memberScope (k : EntityKind) (e : EntityUid) : Scope :=
  if k.isContainer then .within e else .eq e

namespace Config

variable {c : Config}

theorem memberScope_eq_ok_iff {member : String} {s : Scope} :
    c.memberScope member = .ok s ↔
      (member = anyMember ∧ s = .all) ∨
      (member = anyUserMember ∧ s = .is (c.qualify EntityKind.user.name)) ∨
      ∃ (k : EntityKind) (word id : String), k.memberWord? = some word ∧
        member = word ++ ":" ++ id ∧ id ≠ "" ∧ '\n' ∉ id.toList ∧
        s = k.memberScope ⟨c.qualify k.name, id⟩ := by
  unfold memberScope
  by_cases hany : member = anyMember
  · subst hany
    rw [if_pos rfl]
    constructor
    · rintro ⟨⟩
      exact Or.inl ⟨rfl, rfl⟩
    · rintro (⟨-, rfl⟩ | ⟨h, -⟩ | ⟨k, word, id, -, h, -⟩)
      · rfl
      · exact absurd h (by decide)
      · exact absurd h.symm (word_colon_ne word id).1
  rw [if_neg hany]
  by_cases huser : member = anyUserMember
  · subst huser
    rw [if_pos rfl]
    constructor
    · rintro ⟨⟩
      exact Or.inr (Or.inl ⟨rfl, rfl⟩)
    · rintro (⟨h, -⟩ | ⟨-, rfl⟩ | ⟨k, word, id, -, h, -⟩)
      · exact absurd h hany
      · rfl
      · exact absurd h.symm (word_colon_ne word id).2
  rw [if_neg huser]
  constructor
  · intro h
    split at h
    · cases h
    · rename_i word id hsplit
      obtain ⟨hmember, -, -, hid, hline⟩ := splitMember?_eq_some_iff.mp hsplit
      split at h
      · cases h
      · rename_i k hk
        have hword := EntityKind.ofMemberWord?_eq_some_iff.mp hk
        exact Or.inr (Or.inr ⟨k, word, id, hword, hmember, hid, hline, (Except.ok.inj h).symm⟩)
  · rintro (⟨h, -⟩ | ⟨h, -⟩ | ⟨k, word, id, hword, rfl, hid, hline, rfl⟩)
    · exact absurd h hany
    · exact absurd h huser
    · obtain ⟨hne, hletters⟩ := EntityKind.isAlpha_of_memberWord? hword
      rw [splitMember?_eq_some_iff.mpr ⟨rfl, hne, hletters, hid, hline⟩]
      simp only [EntityKind.ofMemberWord?_eq_some_iff.mpr hword]
      rfl

theorem entityMember_eq_ok_iff {e : EntityUid} {within : Bool} {member : String} :
    c.entityMember e within = .ok member ↔
      ∃ (k : EntityKind) (word : String), e.type = c.qualify k.name ∧ k.memberWord? = some word ∧
        k.isContainer = within ∧ member = word ++ ":" ++ e.id := by
  unfold entityMember
  constructor
  · intro h
    split at h
    · cases h
    · rename_i k hk
      split at h
      · cases h
      · rename_i word hword
        split_ifs at h with hwithin
        exact ⟨k, word, kind?_eq_some_iff.mp hk, hword, hwithin, (Except.ok.inj h).symm⟩
  · rintro ⟨k, word, htype, hword, hwithin, rfl⟩
    simp only [kind?_eq_some_iff.mpr htype, hword, if_pos hwithin]

theorem scopeMember_eq_ok_iff {s : Scope} {member : String} :
    c.scopeMember s = .ok member ↔
      (s = .all ∧ member = anyMember) ∨
      (s = .is (c.qualify EntityKind.user.name) ∧ member = anyUserMember) ∨
      ∃ (k : EntityKind) (word id : String), k.memberWord? = some word ∧
        member = word ++ ":" ++ id ∧ s = k.memberScope ⟨c.qualify k.name, id⟩ := by
  constructor
  · intro h
    cases s with
    | all => exact Or.inl ⟨rfl, (Except.ok.inj h).symm⟩
    | is type =>
      rw [scopeMember] at h
      split_ifs at h with huser
      rw [unqualify?_eq_some_iff] at huser
      exact Or.inr (Or.inl ⟨by rw [huser], (Except.ok.inj h).symm⟩)
    | eq e =>
      obtain ⟨k, word, htype, hword, hwithin, rfl⟩ := entityMember_eq_ok_iff.mp h
      refine Or.inr (Or.inr ⟨k, word, e.id, hword, rfl, ?_⟩)
      rw [EntityKind.memberScope, hwithin, ← htype]
      rfl
    | within e =>
      obtain ⟨k, word, htype, hword, hwithin, rfl⟩ := entityMember_eq_ok_iff.mp h
      refine Or.inr (Or.inr ⟨k, word, e.id, hword, rfl, ?_⟩)
      rw [EntityKind.memberScope, hwithin, ← htype]
      rfl
    | withinAny es => cases h
    | isWithin type e => cases h
  · rintro (⟨rfl, rfl⟩ | ⟨rfl, rfl⟩ | ⟨k, word, id, hword, rfl, rfl⟩)
    · rfl
    · simp [scopeMember]
    · unfold EntityKind.memberScope
      split_ifs with hwithin
      · exact entityMember_eq_ok_iff.mpr ⟨k, word, rfl, hword, hwithin, rfl⟩
      · exact entityMember_eq_ok_iff.mpr ⟨k, word, rfl, hword, by simpa using hwithin, rfl⟩

/-- A scope made from a member reads back as this member. -/
theorem scopeMember_of_memberScope {member : String} {s : Scope}
    (h : c.memberScope member = .ok s) : c.scopeMember s = .ok member := by
  rw [memberScope_eq_ok_iff] at h
  rw [scopeMember_eq_ok_iff]
  obtain ⟨rfl, rfl⟩ | ⟨rfl, rfl⟩ | ⟨k, word, id, hword, hmember, -, -, hs⟩ := h
  · exact Or.inl ⟨rfl, rfl⟩
  · exact Or.inr (Or.inl ⟨rfl, rfl⟩)
  · exact Or.inr (Or.inr ⟨k, word, id, hword, hmember, hs⟩)

/-- A member stands for one scope only. -/
theorem scopeMember_inj {member : String} {s s' : Scope} (h : c.scopeMember s = .ok member)
    (h' : c.scopeMember s' = .ok member) : s' = s := by
  rw [scopeMember_eq_ok_iff] at h h'
  obtain ⟨rfl, rfl⟩ | ⟨rfl, rfl⟩ | ⟨k, word, id, hword, rfl, rfl⟩ := h
  · obtain ⟨rfl, -⟩ | ⟨-, h⟩ | ⟨k, word, id, -, h, -⟩ := h'
    · rfl
    · exact absurd h (by decide)
    · exact absurd h.symm (word_colon_ne word id).1
  · obtain ⟨-, h⟩ | ⟨rfl, -⟩ | ⟨k, word, id, -, h, -⟩ := h'
    · exact absurd h (by decide)
    · rfl
    · exact absurd h.symm (word_colon_ne word id).2
  · obtain ⟨-, h⟩ | ⟨-, h⟩ | ⟨k', word', id', hword', h, rfl⟩ := h'
    · exact absurd h (word_colon_ne word id).1
    · exact absurd h (word_colon_ne word id).2
    · obtain ⟨rfl, rfl⟩ := word_colon_inj (EntityKind.isAlpha_of_memberWord? hword).2
        (EntityKind.isAlpha_of_memberWord? hword').2 h
      have hk := EntityKind.ofMemberWord?_memberWord hword
      rw [EntityKind.ofMemberWord?_memberWord hword'] at hk
      rw [Option.some.inj hk]

/-- The only scope that may be made from the member of a scope is this scope. -/
theorem eq_of_memberScope {member : String} {s s' : Scope} (h : c.scopeMember s = .ok member)
    (h' : c.memberScope member = .ok s') : s' = s :=
  scopeMember_inj h (scopeMember_of_memberScope h')

end Config

/-! ## Actions -/

/-- The entities that a scope of actions names one by one. -/
def Scope.entities : Scope → List EntityUid
  | .eq e => [e]
  | .withinAny es => es
  | _ => []

@[simp]
theorem identifier_ofIdentifier (id : String) (exclude : Bool) :
    (Action.ofIdentifier id exclude).identifier = id := by
  unfold Action.identifier Action.ofIdentifier
  split_ifs <;> rfl

namespace Config

variable {c : Config}

/-- The action entity of an identifier. -/
def namedAction (c : Config) (id : String) : EntityUid := ⟨c.qualify EntityKind.action.name, id⟩

theorem actionEntity_eq (a : Action) : c.actionEntity a = c.namedAction a.identifier := rfl

theorem actionId_eq_ok_iff {e : EntityUid} {id : String} :
    c.actionId e = .ok id ↔ e = c.namedAction id := by
  obtain ⟨type, eid⟩ := e
  unfold actionId namedAction
  constructor
  · intro h
    split_ifs at h with htype
    rw [unqualify?_eq_some_iff] at htype
    rw [← htype, ← Except.ok.inj h]
  · rintro ⟨⟩
    rw [if_pos (unqualify?_qualify _)]

theorem mapM_actionId_eq_ok_iff {es : List EntityUid} {ids : List String} :
    es.mapM c.actionId = .ok ids ↔ es = ids.map c.namedAction := by
  rw [mapM_eq_ok_iff]
  simp only [actionId_eq_ok_iff]
  rw [← List.forall₂_map_right_iff, List.forall₂_eq_eq_eq]

theorem entities_actionScope (as : List Action) :
    (c.actionScope as).entities = as.map c.actionEntity := by
  unfold actionScope
  split <;> simp [Scope.entities, *]

theorem actionScope_eq_all_iff {as : List Action} : c.actionScope as = .all ↔ as = [] := by
  unfold actionScope
  constructor
  · intro h
    split at h
    · rename_i hnil
      exact List.map_eq_nil_iff.mp hnil
    · cases h
    · cases h
  · rintro rfl
    rfl

/-- The identifiers that are read from a scope name its entities. -/
theorem entities_of_scopeActions {s : Scope} {ids : List String}
    (h : c.scopeActions s = .ok ids) : s.entities = ids.map c.namedAction := by
  cases s with
  | all => rw [← Except.ok.inj h]; rfl
  | eq e =>
    obtain ⟨id, hid, rfl⟩ := map_eq_ok_iff.mp h
    rw [actionId_eq_ok_iff.mp hid]
    rfl
  | withinAny es => exact mapM_actionId_eq_ok_iff.mp h
  | within e => cases h
  | is type => cases h
  | isWithin type e => cases h

/-- A scope made from actions reads back as their identifiers. -/
theorem scopeActions_actionScope (as : List Action) :
    c.scopeActions (c.actionScope as) = .ok (as.map Action.identifier) := by
  have hids : as.map c.actionEntity = (as.map Action.identifier).map c.namedAction := by
    rw [List.map_map]
    rfl
  unfold actionScope
  rw [hids]
  split
  · rename_i h
    rw [List.map_eq_nil_iff.mp h]
    rfl
  · rename_i e h
    obtain ⟨id, hid, rfl⟩ := List.map_eq_singleton_iff.mp h
    rw [scopeActions, hid, map_eq_ok_iff]
    exact ⟨id, actionId_eq_ok_iff.mpr rfl, rfl⟩
  · exact mapM_actionId_eq_ok_iff.mpr rfl

/-! ## Resources -/

/-- The asset that an entity reads back as: its identifier if it is of the type for objects, its
    literal if not. -/
def assetOf (c : Config) (e : EntityUid) : String :=
  if e.type = c.qualify c.resourceType then e.id else e.text

/-- An asset in the form in which it reads back: a literal gives way to the asset of its entity. -/
def plainAsset (c : Config) (asset : String) : String :=
  ((EntityUid.ofLiteral? asset).map c.assetOf).getD asset

/-- Scopes with an asset have no limit or are that of one entity. -/
theorem scopeAsset_eq_ok_iff {s : Scope} {asset : Option String} :
    c.scopeAsset s = .ok asset ↔
      (s = .all ∧ asset = none) ∨ ∃ e, s = .eq e ∧ asset = some (c.assetOf e) := by
  cases s <;> simp [scopeAsset, assetOf, eq_comm]

theorem scopeAsset_assetScope (asset : Option String) :
    c.scopeAsset (c.assetScope asset) = .ok (asset.map c.plainAsset) := by
  cases asset with
  | none => rfl
  | some asset =>
    unfold assetScope scopeAsset assetEntity plainAsset
    cases h : EntityUid.ofLiteral? asset with
    | none => simp [h]
    | some e => simp [h, assetOf]

/-- The scope of an entity of the type for objects comes back from its asset, unless the identifier
    is itself a literal. -/
theorem assetScope_of_scopeAsset {s : Scope} {asset : Option String}
    (h : c.scopeAsset s = .ok asset)
    (hs : s = .all ∨ ∃ id, EntityUid.ofLiteral? id = none ∧
      s = .eq ⟨c.qualify c.resourceType, id⟩) : c.assetScope asset = s := by
  obtain rfl | ⟨id, hid, rfl⟩ := hs
  · rw [← Except.ok.inj h]
    rfl
  · rw [scopeAsset, if_pos rfl] at h
    rw [← Except.ok.inj h, assetScope, assetEntity, hid]
    rfl

end Config

end AccessPolicy.Cedar
