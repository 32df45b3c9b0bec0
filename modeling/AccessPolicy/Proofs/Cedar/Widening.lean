import AccessPolicy.Proofs.Cedar.Gather
import AccessPolicy.Proofs.Cedar.Pieces
import AccessPolicy.Proofs.Cedar.Reading

/-!
# What is permitted after policies came together

Cedar policies with one identifier come together in a policy with the members and the actions of all
of them. On the way back each of these members gets each of these actions: what one of the Cedar
policies permits to its principals is permitted to the principals of the others as well.

* `permits_split_merge`: exactly what is permitted after the way through policies, and when that is
  not more than before.
* `widened`: two Cedar policies after which more is permitted.
-/

namespace AccessPolicy.Cedar

open Outcome

/-! ## What is permitted -/

/-- Some policy of a list permits an action by name to the principals of a scope on the resources of
    a scope. -/
def Permits (qs : List Policy) (principal resource : Scope) (action : EntityUid) : Prop :=
  ∃ q ∈ qs, q.effect = .permit ∧ q.principal = principal ∧ q.resource = resource ∧
    action ∈ q.action.entities

instance (qs : List Policy) (principal resource : Scope) (action : EntityUid) :
    Decidable (Permits qs principal resource action) :=
  inferInstanceAs (Decidable (∃ q ∈ qs, q.effect = .permit ∧ q.principal = principal ∧
    q.resource = resource ∧ action ∈ q.action.entities))

/-- A Cedar policy that permits without conditions: it names its actions, and its resource is any or
    an object that is not written as a literal. -/
structure PlainPermit (c : Config) (q : Policy) : Prop where
  effect : q.effect = .permit
  clauses : q.clauses = []
  action : (∃ e, q.action = .eq e) ∨ ∃ es, es ≠ [] ∧ q.action = .withinAny es
  resource : q.resource = .all ∨ ∃ id, EntityUid.ofLiteral? id = none ∧
    q.resource = .eq ⟨c.qualify c.resourceType, id⟩

/-- Two Cedar policies of a list come together: they are the same or carry the same identifier. -/
def SharesId (q₁ q₂ : Policy) : Prop :=
  q₁ = q₂ ∨ ((lastValue? q₂.annotations "id").isSome ∧
    lastValue? q₁.annotations "id" = lastValue? q₂.annotations "id")

theorem PlainPermit.exists_entity {c : Config} {q : Policy} (h : PlainPermit c q) :
    ∃ e, e ∈ q.action.entities := by
  obtain ⟨e, he⟩ | ⟨es, hes, he⟩ := h.action
  · exact ⟨e, by rw [he]; exact List.mem_singleton_self e⟩
  · obtain ⟨e, hmem⟩ := List.exists_mem_of_ne_nil es hes
    exact ⟨e, by rw [he]; exact hmem⟩

/-! ## Plain permits as policies -/

/-- What a plain permit reads as: its member, its actions, none of them excluded, and its
    resource. -/
structure ReadsAs (c : Config) (q : Policy) (p : AccessPolicy.Policy) : Prop where
  member : ∃ m, p.subject.members = [m] ∧ c.scopeMember q.principal = .ok m
  actions : ∃ ids : List String, q.action.entities = ids.map c.namedAction ∧
    p.actions = ids.map (Action.ofIdentifier · false)
  id : p.id = lastValue? q.annotations "id"
  resource : c.resourceScope p = q.resource
  denies : p.denies = true ↔ q.ReadsDenied

theorem readsAs_of_policyOf {c : Config} {q : Policy} {p : AccessPolicy.Policy}
    (hplain : PlainPermit c q) (h : c.policyOf q = .ok p) : ReadsAs c q p := by
  obtain ⟨n, member, ids, asset, hn, hmember, hids, hasset, rfl⟩ := Config.policyOf_eq_ok_iff.mp h
  have hexclusion : q.isExclusion n = false := by
    simp [Policy.isExclusion, hplain.effect]
  have hid : n.id = lastValue? q.annotations "id" := by
    obtain ⟨-, rfl⟩ := Notes.ofAnnotations_eq_ok_iff.mp hn
    rfl
  refine ⟨⟨member, rfl, hmember⟩, ⟨ids, Config.entities_of_scopeActions hids, ?_⟩, hid, ?_,
    denies_reading_iff hn⟩
  · rw [Policy.reading, hexclusion]
  · unfold Config.resourceScope Policy.reading
    rw [assetId_objectOf]
    exact Config.assetScope_of_scopeAsset hasset hplain.resource

namespace ReadsAs

variable {c : Config} {q : Policy} {p : AccessPolicy.Policy} {m : String} {a : Action}

theorem scopeMember (h : ReadsAs c q p) (hm : m ∈ p.subject.members) :
    c.scopeMember q.principal = .ok m := by
  obtain ⟨m', hmembers, hm'⟩ := h.member
  rw [hmembers, List.mem_singleton] at hm
  rw [hm]
  exact hm'

theorem actionEntity_mem (h : ReadsAs c q p) (ha : a ∈ p.actions) :
    c.actionEntity a ∈ q.action.entities := by
  obtain ⟨ids, hentities, hactions⟩ := h.actions
  rw [hactions] at ha
  obtain ⟨id, hid, rfl⟩ := List.mem_map.mp ha
  rw [hentities, Config.actionEntity_eq, identifier_ofIdentifier]
  exact List.mem_map_of_mem hid

theorem exists_action (h : ReadsAs c q p) {e : EntityUid} (he : e ∈ q.action.entities) :
    ∃ a ∈ p.actions, c.actionEntity a = e ∧ a.exclude = false := by
  obtain ⟨ids, hentities, hactions⟩ := h.actions
  rw [hentities] at he
  obtain ⟨id, hid, rfl⟩ := List.mem_map.mp he
  refine ⟨Action.ofIdentifier id false, ?_, ?_, rfl⟩
  · rw [hactions]
    exact List.mem_map.mpr ⟨id, hid, rfl⟩
  · rw [Config.actionEntity_eq, identifier_ofIdentifier]

end ReadsAs

/-! ## Plain permits that came together -/

section Collected

variable {c : Config} {rs : List AccessPolicy.Policy} {q : Policy} {r r' p : AccessPolicy.Policy}

/-- A gathered policy has the resource and denies like each of those that came together in it. -/
theorem resourceScope_of_collects (hconsistent : Consistent rs) (hr : r ∈ rs) (hr' : r' ∈ rs)
    (h : Together r r') (hcollects : Collects rs r p) :
    c.resourceScope p = c.resourceScope r' ∧ p.denies = r'.denies := by
  have hagree := agree_of_together hconsistent hr hr' h
  unfold Config.resourceScope AccessPolicy.Policy.denies
  rw [hcollects.object, hcollects.condition, hagree.object, hagree.condition]
  exact ⟨rfl, rfl⟩

/-- A gathered policy has members, since each of those that came together in it has one. -/
theorem principals_of_collects (hreads : ReadsAs c q r) (hr : r ∈ rs)
    (hcollects : Collects rs r p) : principals p = p.subject.members := by
  obtain ⟨m, hm, -⟩ := hreads.member
  have hmem : m ∈ p.subject.members := by
    refine (hcollects.mem_members m).mpr ⟨r, hr, Or.inl rfl, ?_⟩
    rw [hm]
    exact List.mem_singleton_self m
  exact principals_of_mem hmem

theorem mem_included_of_collects {a : Action} (hcollects : Collects rs r p) (hr' : r' ∈ rs)
    (h : Together r r') (ha : a ∈ r'.actions) (hexclude : a.exclude = false) : a ∈ p.included := by
  refine List.mem_filter.mpr ⟨(hcollects.mem_actions a).mpr ⟨r', hr', h, ha⟩, ?_⟩
  rw [hexclude]
  rfl

end Collected

/-! ## The way through policies -/

namespace Config

variable {c : Config} {qs qs' : List Policy} {ps : PolicySet}

section Way

variable (hplain : ∀ q ∈ qs, PlainPermit c q) (hmerge : c.merge qs = .ok ps)
  (hsplit : c.split ps = .ok qs')

include hplain in
theorem exists_readsAs_left {rs : List AccessPolicy.Policy}
    (hrs : qs.mapM c.policyOf = .ok rs) {q : Policy} (hq : q ∈ qs) :
    ∃ r ∈ rs, ReadsAs c q r := by
  obtain ⟨r, hr, hread⟩ := exists_of_mem_left (mapM_eq_ok_iff.mp hrs) hq
  exact ⟨r, hr, readsAs_of_policyOf (hplain q hq) hread⟩

include hplain in
theorem exists_readsAs_right {rs : List AccessPolicy.Policy}
    (hrs : qs.mapM c.policyOf = .ok rs) {r : AccessPolicy.Policy} (hr : r ∈ rs) :
    ∃ q ∈ qs, ReadsAs c q r := by
  obtain ⟨q, hq, hread⟩ := exists_of_mem_right (mapM_eq_ok_iff.mp hrs) hr
  exact ⟨q, hq, readsAs_of_policyOf (hplain q hq) hread⟩

include hplain in
theorem exists_together {rs : List AccessPolicy.Policy} (hrs : qs.mapM c.policyOf = .ok rs)
    {q₁ q₂ : Policy} (hq₁ : q₁ ∈ qs) (hq₂ : q₂ ∈ qs) (hshares : SharesId q₁ q₂) :
    ∃ r₁ ∈ rs, ∃ r₂ ∈ rs, Together r₁ r₂ ∧ ReadsAs c q₁ r₁ ∧ ReadsAs c q₂ r₂ := by
  obtain ⟨r₁, hr₁, h₁⟩ := exists_readsAs_left hplain hrs hq₁
  rcases hshares with rfl | ⟨hid, hsame⟩
  · exact ⟨r₁, hr₁, r₁, hr₁, Or.inl rfl, h₁, h₁⟩
  · obtain ⟨r₂, hr₂, h₂⟩ := exists_readsAs_left hplain hrs hq₂
    rw [← h₂.id] at hid
    rw [← h₁.id, ← h₂.id] at hsame
    exact ⟨r₁, hr₁, r₂, hr₂, Or.inr ⟨hid, hsame⟩, h₁, h₂⟩

include hplain hmerge hsplit

/-- What is permitted in the end comes from two policies that came together, one for the principals
    and one for the action. -/
theorem exists_of_permits {s x : Scope} {e : EntityUid} (h : Permits qs' s x e) :
    ∃ q₁ ∈ qs, ∃ q₂ ∈ qs, SharesId q₁ q₂ ∧ ¬ q₁.ReadsDenied ∧ q₁.principal = s ∧
      q₁.resource = x ∧ q₂.resource = x ∧ e ∈ q₂.action.entities := by
  obtain ⟨rs, hrs, hconsistent, rfl⟩ := merge_eq_ok_iff.mp hmerge
  obtain ⟨q', hq', heffect, rfl, rfl, he⟩ := h
  obtain ⟨p, hp, m, hm, s, hs, g, hg, rfl⟩ := (mem_split_iff hsplit).mp hq'
  obtain ⟨r, hr, hcollects⟩ := exists_collects_of_mem_gather hp
  rw [piece_effect] at heffect
  obtain ⟨hdenies, hactions⟩ := of_mem_groups_of_permit hg heffect
  rw [piece_action, hactions, entities_actionScope] at he
  obtain ⟨a, ha, rfl⟩ := List.mem_map.mp he
  obtain ⟨q, _, hreads⟩ := exists_readsAs_right hplain hrs hr
  rw [principals_of_collects hreads hr hcollects] at hm
  -- the member and the action may come from different policies
  obtain ⟨r₁, hr₁, ht₁, hm₁⟩ := (hcollects.mem_members m).mp hm
  obtain ⟨r₂, hr₂, ht₂, ha₂⟩ := (hcollects.mem_actions a).mp (List.mem_filter.mp ha).1
  obtain ⟨q₁, hq₁, h₁⟩ := exists_readsAs_right hplain hrs hr₁
  obtain ⟨q₂, hq₂, h₂⟩ := exists_readsAs_right hplain hrs hr₂
  have hsame : ∀ {q r'}, r' ∈ rs → Together r r' → ReadsAs c q r' →
      q.resource = c.resourceScope p ∧ ¬ q.ReadsDenied := by
    intro q r' hr' ht hreads
    obtain ⟨hresource, hdenies'⟩ :=
      resourceScope_of_collects (c := c) hconsistent hr hr' ht hcollects
    rw [hresource, hreads.resource, ← hreads.denies, ← hdenies', hdenies]
    exact ⟨rfl, Bool.false_ne_true⟩
  have hprincipal : ∀ {q r'}, m ∈ r'.subject.members → ReadsAs c q r' → q.principal = s :=
    fun hm hreads => (eq_of_memberScope (hreads.scopeMember hm) hs).symm
  rw [piece_principal, piece_resource]
  obtain ⟨hresource₁, hdenied₁⟩ := hsame hr₁ ht₁ h₁
  obtain ⟨hresource₂, hdenied₂⟩ := hsame hr₂ ht₂ h₂
  rcases together_trans (together_symm ht₁) ht₂ with rfl | hjoin
  · exact ⟨q₂, hq₂, q₂, hq₂, Or.inl rfl, hdenied₂, hprincipal hm₁ h₂, hresource₂, hresource₂,
      h₂.actionEntity_mem ha₂⟩
  · have hshares : SharesId q₁ q₂ := by
      obtain ⟨hid, hids⟩ := hjoin
      rw [h₁.id, h₂.id] at hids
      rw [h₂.id] at hid
      exact Or.inr ⟨hid, hids⟩
    exact ⟨q₁, hq₁, q₂, hq₂, hshares, hdenied₁, hprincipal hm₁ h₁, hresource₁, hresource₂,
      h₂.actionEntity_mem ha₂⟩

/-- What one of two policies that came together permits is in the end permitted to the principals
    of the other, unless they read as denials. -/
theorem permits_of_sharesId {q₁ q₂ : Policy} (hq₁ : q₁ ∈ qs) (hq₂ : q₂ ∈ qs)
    (hshares : SharesId q₁ q₂) (hdenied : ¬ q₁.ReadsDenied) {e : EntityUid}
    (he : e ∈ q₂.action.entities) : Permits qs' q₁.principal q₁.resource e := by
  obtain ⟨rs, hrs, hconsistent, rfl⟩ := merge_eq_ok_iff.mp hmerge
  obtain ⟨r₁, hr₁, r₂, hr₂, ht, h₁, h₂⟩ := exists_together hplain hrs hq₁ hq₂ hshares
  obtain ⟨r, hr, ht₁, p, hp, hcollects⟩ := exists_mem_gather hr₁
  obtain ⟨hresource, hdenies⟩ :=
    resourceScope_of_collects (c := c) hconsistent hr hr₁ ht₁ hcollects
  obtain ⟨m, hm, hscope⟩ := h₁.member
  have hmem : m ∈ p.subject.members := by
    refine (hcollects.mem_members m).mpr ⟨r₁, hr₁, ht₁, ?_⟩
    rw [hm]
    exact List.mem_singleton_self m
  have hprincipals : m ∈ principals p := by
    rw [principals_of_mem hmem]
    exact hmem
  obtain ⟨s, hs⟩ := exists_memberScope hsplit hp hprincipals
  obtain ⟨a, ha, rfl, hexclude⟩ := h₂.exists_action he
  have hincluded := mem_included_of_collects hcollects hr₂ (together_trans ht₁ ht) ha hexclude
  have hgranted : p.denies = false := by
    rw [hdenies, ← Bool.not_eq_true, h₁.denies]
    exact hdenied
  refine ⟨c.piece p s _, (mem_split_iff hsplit).mpr
    ⟨p, hp, m, hprincipals, s, hs, _, mem_groups_of_mem_included hincluded, rfl⟩, ?_, ?_, ?_, ?_⟩
  · rw [piece_effect, hgranted]
    rfl
  · rw [piece_principal]
    exact eq_of_memberScope hscope hs
  · rw [piece_resource, hresource, h₁.resource]
  · rw [piece_action, entities_actionScope]
    exact List.mem_map_of_mem hincluded

/-- What permits in the end still names its actions. -/
theorem entities_ne_nil_of_permit {q' : Policy} (hq' : q' ∈ qs') (heffect : q'.effect = .permit) :
    q'.action.entities ≠ [] := by
  obtain ⟨rs, hrs, hconsistent, rfl⟩ := merge_eq_ok_iff.mp hmerge
  obtain ⟨p, hp, m, hm, s, hs, g, hg, rfl⟩ := (mem_split_iff hsplit).mp hq'
  obtain ⟨r, hr, hcollects⟩ := exists_collects_of_mem_gather hp
  obtain ⟨q, hq, hreads⟩ := exists_readsAs_right hplain hrs hr
  obtain ⟨e, he⟩ := (hplain q hq).exists_entity
  obtain ⟨a, ha, -, hexclude⟩ := hreads.exists_action he
  have hincluded := mem_included_of_collects hcollects hr (Or.inl rfl) ha hexclude
  rw [piece_effect] at heffect
  obtain ⟨-, hactions⟩ := of_mem_groups_of_permit hg heffect
  rw [piece_action, hactions, entities_actionScope, Ne, List.map_eq_nil_iff]
  exact List.ne_nil_of_mem hincluded

end Way

/-- After the way through policies an action is permitted to the principals of a Cedar policy if it
    was permitted by one that came together with it, and nothing else is permitted. So more is
    permitted than before unless each action of the one was permitted to the principals of the
    other already. -/
theorem permits_split_merge (hplain : ∀ q ∈ qs, PlainPermit c q) (hmerge : c.merge qs = .ok ps)
    (hsplit : c.split ps = .ok qs') :
    (∀ q' ∈ qs', q'.effect = .permit → q'.action.entities ≠ []) ∧
    (∀ s x e, Permits qs' s x e ↔
      ∃ q₁ ∈ qs, ∃ q₂ ∈ qs, SharesId q₁ q₂ ∧ ¬ q₁.ReadsDenied ∧ q₁.principal = s ∧
        q₁.resource = x ∧ q₂.resource = x ∧ e ∈ q₂.action.entities) ∧
    ((∀ s x e, Permits qs' s x e → Permits qs s x e) ↔
      ∀ q₁ ∈ qs, ∀ q₂ ∈ qs, SharesId q₁ q₂ → ¬ q₁.ReadsDenied →
        ∀ e ∈ q₂.action.entities, Permits qs q₁.principal q₁.resource e) := by
  refine ⟨?_, ?_, ?_⟩
  · exact fun q' => entities_ne_nil_of_permit hplain hmerge hsplit
  · intro s x e
    constructor
    · exact exists_of_permits hplain hmerge hsplit
    · rintro ⟨q₁, hq₁, q₂, hq₂, hshares, hdenied, rfl, rfl, -, he⟩
      exact permits_of_sharesId hplain hmerge hsplit hq₁ hq₂ hshares hdenied he
  · constructor
    · intro h q₁ hq₁ q₂ hq₂ hshares hdenied e he
      exact h _ _ e (permits_of_sharesId hplain hmerge hsplit hq₁ hq₂ hshares hdenied he)
    · intro h s x e hpermits
      obtain ⟨q₁, hq₁, q₂, hq₂, hshares, hdenied, rfl, rfl, -, he⟩ :=
        exists_of_permits hplain hmerge hsplit hpermits
      exact h q₁ hq₁ q₂ hq₂ hshares hdenied e he

/-- Two permits under one identifier, each for one member and one action. -/
def aliceAndBob : List Policy :=
  [{ effect := .permit, annotations := [("id", "x")], principal := .eq ⟨"User", "alice"⟩,
     action := .eq ⟨"Action", "view"⟩, resource := .eq ⟨"Resource", "album"⟩ },
   { effect := .permit, annotations := [("id", "x")], principal := .eq ⟨"User", "bob"⟩,
     action := .eq ⟨"Action", "delete"⟩, resource := .eq ⟨"Resource", "album"⟩ }]

theorem plainPermit_aliceAndBob : ∀ q ∈ aliceAndBob, PlainPermit {} q := by
  have halbum : EntityUid.ofLiteral? "album" = none := by decide
  intro q hq
  simp only [aliceAndBob, List.mem_cons, List.not_mem_nil, or_false] at hq
  obtain rfl | rfl := hq
  · exact ⟨rfl, rfl, Or.inl ⟨_, rfl⟩, Or.inr ⟨"album", halbum, rfl⟩⟩
  · exact ⟨rfl, rfl, Or.inl ⟨_, rfl⟩, Or.inr ⟨"album", halbum, rfl⟩⟩

/-- Alice may delete in the end, as Bob could before. -/
theorem permits_split_merge_aliceAndBob :
    ∃ ps qs', ({} : Config).merge aliceAndBob = .ok ps ∧ ({} : Config).split ps = .ok qs' ∧
      Permits qs' (.eq ⟨"User", "alice"⟩) (.eq ⟨"Resource", "album"⟩) ⟨"Action", "delete"⟩ := by
  obtain ⟨ps, hmerge⟩ : ∃ ps, ({} : Config).merge aliceAndBob = .ok ps := ⟨_, rfl⟩
  obtain ⟨qs', hsplit⟩ : ∃ qs', ({} : Config).split ps = .ok qs' := by
    obtain rfl := Except.ok.inj hmerge
    exact ⟨_, rfl⟩
  refine ⟨ps, qs', hmerge, hsplit, ?_⟩
  obtain ⟨-, hpermits, -⟩ := permits_split_merge plainPermit_aliceAndBob hmerge hsplit
  rw [hpermits]
  refine ⟨aliceAndBob[0], by decide, aliceAndBob[1], by decide, Or.inr (by decide), ?_, by decide⟩
  rintro ⟨hdeny, -⟩
  exact absurd hdeny (by decide)

/-- So the way through policies may permit to the principals of one Cedar policy what only another
    one permitted before. -/
theorem widened :
    ¬ ∀ (c : Config) (qs qs' : List Policy) (ps : PolicySet), (∀ q ∈ qs, PlainPermit c q) →
      c.merge qs = .ok ps → c.split ps = .ok qs' →
      ∀ s x e, Permits qs' s x e → Permits qs s x e := by
  intro h
  obtain ⟨ps, hmerge⟩ : ∃ ps, ({} : Config).merge aliceAndBob = .ok ps := ⟨_, rfl⟩
  obtain ⟨qs', hsplit, hpermits⟩ : ∃ qs', ({} : Config).split ps = .ok qs' ∧
      Permits qs' (.eq ⟨"User", "alice"⟩) (.eq ⟨"Resource", "album"⟩) ⟨"Action", "delete"⟩ := by
    obtain rfl := Except.ok.inj hmerge
    exact ⟨_, rfl, by decide⟩
  have hbefore := h {} aliceAndBob qs' ps plainPermit_aliceAndBob hmerge hsplit _ _ _ hpermits
  revert hbefore
  decide

end Config

end AccessPolicy.Cedar
