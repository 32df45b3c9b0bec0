import AccessPolicy.Proofs.Binding.Expansion
import AccessPolicy.Proofs.Cedar.Merging
import AccessPolicy.Proofs.Cedar.Widening
import AccessPolicy.Proofs.Policy.Document

/-!
# Saving what was mapped

The policies that come from role bindings can be saved and loaded again: each of them has the
actions of its role. A Cedar policy for any action on any resource names neither actions nor an
object. What it reads as can be saved, but not loaded, unless another policy comes together with it
and brings actions.

* `Cedar.isActionable_iff_of_policyOf`: the Cedar policies that read as an actionable policy.
* `Cedar.isActionable_gather_iff`, `Cedar.isActionable_merge_iff`: when all policies are actionable
  after they came together.
* `RoleTable.isActionable_of_mem_policies`: the policies of assignments are actionable.
* `PolicySet.load_save_mapped`: which mapped sets are loaded again.
* `PolicySet.load_save_anything`: one that is not.
-/

namespace AccessPolicy

open Json Outcome

/-! ## Cedar policies -/

namespace Cedar

/-- A Cedar policy names an action, a resource or a path. -/
def Policy.NamesTarget (q : Policy) : Prop :=
  q.action.entities ≠ [] ∨ q.resource ≠ .all ∨ (lastValue? q.annotations "pathSpec").isSome

theorem objectOf_eq_none_iff {asset path : Option String} :
    objectOf asset path = none ↔ asset = none ∧ path = none := by
  cases asset <;> cases path <;> simp [objectOf]

theorem asset_eq_none_iff {c : Config} {s : Scope} {asset : Option String}
    (h : c.scopeAsset s = .ok asset) : asset = none ↔ s = .all := by
  obtain ⟨rfl, rfl⟩ | ⟨e, rfl, rfl⟩ := Config.scopeAsset_eq_ok_iff.mp h <;> simp

/-- What a Cedar policy reads as is actionable exactly if it names an action, a resource or a
    path. -/
theorem isActionable_iff_of_policyOf {c : Config} {q : Policy} {r : AccessPolicy.Policy}
    (h : c.policyOf q = .ok r) : r.isActionable = true ↔ q.NamesTarget := by
  obtain ⟨n, member, ids, asset, hn, -, hids, hasset, rfl⟩ := Config.policyOf_eq_ok_iff.mp h
  obtain ⟨-, rfl⟩ := Notes.ofAnnotations_eq_ok_iff.mp hn
  have hactions : q.action.entities = [] ↔ ids = [] := by
    rw [Config.entities_of_scopeActions hids, List.map_eq_nil_iff]
  have hpath : (lastValue? q.annotations "pathSpec").isSome ↔
      ¬ lastValue? q.annotations "pathSpec" = none := Option.isSome_iff_ne_none
  rw [AccessPolicy.Policy.isActionable_iff, Policy.NamesTarget, hpath, Ne, hactions, Ne,
    ← asset_eq_none_iff hasset, ← not_and_or, ← not_and_or]
  simp only [Policy.reading, List.map_eq_nil_iff, objectOf_eq_none_iff, Notes.ofValues]

/-- A gathered policy is actionable if one of those that came together in it is: it has the object
    of each of them, and the actions of all. -/
theorem isActionable_iff_of_collects {rs : List AccessPolicy.Policy} {r p : AccessPolicy.Policy}
    (h : Consistent rs) (hr : r ∈ rs) (hcollects : Collects rs r p) :
    p.isActionable = true ↔ ∃ r' ∈ rs, Together r r' ∧ r'.isActionable = true := by
  have hobject : ∀ r' ∈ rs, Together r r' → r'.object = p.object := fun r' hr' ht =>
    ((agree_of_together h hr hr' ht).object).symm.trans hcollects.object.symm
  simp only [AccessPolicy.Policy.isActionable_iff, not_and_or]
  constructor
  · rintro (hactions | hobj)
    · obtain ⟨a, ha⟩ := List.exists_mem_of_ne_nil _ hactions
      obtain ⟨r', hr', ht, ha⟩ := (hcollects.mem_actions a).mp ha
      exact ⟨r', hr', ht, Or.inl (List.ne_nil_of_mem ha)⟩
    · exact ⟨r, hr, Or.inl rfl, Or.inr (hobject r hr (Or.inl rfl) ▸ hobj)⟩
  · rintro ⟨r', hr', ht, hactions | hobj⟩
    · obtain ⟨a, ha⟩ := List.exists_mem_of_ne_nil _ hactions
      exact Or.inl (List.ne_nil_of_mem ((hcollects.mem_actions a).mpr ⟨r', hr', ht, ha⟩))
    · exact Or.inr (hobject r' hr' ht ▸ hobj)

theorem isActionable_gather_iff {rs : List AccessPolicy.Policy} (h : Consistent rs) :
    (∀ p ∈ gather rs, p.isActionable = true) ↔
      ∀ r ∈ rs, ∃ r' ∈ rs, Together r r' ∧ r'.isActionable = true := by
  constructor
  · intro hall r hr
    obtain ⟨r₀, hr₀, ht₀, p, hp, hcollects⟩ := exists_mem_gather hr
    obtain ⟨r', hr', ht, hactionable⟩ :=
      (isActionable_iff_of_collects h hr₀ hcollects).mp (hall p hp)
    exact ⟨r', hr', together_trans (together_symm ht₀) ht, hactionable⟩
  · intro hall p hp
    obtain ⟨r, hr, hcollects⟩ := exists_collects_of_mem_gather hp
    exact (isActionable_iff_of_collects h hr hcollects).mpr (hall r hr)

theorem sharesId_iff_joins {c : Config} {q q' : Policy} {r r' : AccessPolicy.Policy}
    (h : c.policyOf q = .ok r) (h' : c.policyOf q' = .ok r') :
    SharesId q q' ↔ q = q' ∨ Joins r r' := by
  rw [SharesId, Joins, Config.id_of_policyOf h, Config.id_of_policyOf h']

/-- The policies that Cedar policies come together in are all actionable exactly if each Cedar
    policy names an action, a resource or a path, or shares its identifier with one that does. -/
theorem isActionable_merge_iff {c : Config} {qs : List Policy} {ps : PolicySet}
    (h : c.merge qs = .ok ps) :
    (∀ p ∈ ps, p.isActionable = true) ↔
      ∀ q ∈ qs, ∃ q' ∈ qs, SharesId q q' ∧ q'.NamesTarget := by
  obtain ⟨rs, hrs, hconsistent, rfl⟩ := Config.merge_eq_ok_iff.mp h
  rw [isActionable_gather_iff hconsistent]
  rw [mapM_eq_ok_iff] at hrs
  constructor
  · intro hall q hq
    obtain ⟨r, hr, hread⟩ := exists_of_mem_left hrs hq
    obtain ⟨r', hr', rfl | hjoins, hactionable⟩ := hall r hr
    · exact ⟨q, hq, Or.inl rfl, (isActionable_iff_of_policyOf hread).mp hactionable⟩
    · obtain ⟨q', hq', hread'⟩ := exists_of_mem_right hrs hr'
      exact ⟨q', hq', (sharesId_iff_joins hread hread').mpr (Or.inr hjoins),
        (isActionable_iff_of_policyOf hread').mp hactionable⟩
  · intro hall r hr
    obtain ⟨q, hq, hread⟩ := exists_of_mem_right hrs hr
    obtain ⟨q', hq', hshares, htarget⟩ := hall q hq
    obtain ⟨r', hr', hread'⟩ := exists_of_mem_left hrs hq'
    rcases (sharesId_iff_joins hread hread').mp hshares with rfl | hjoins
    · exact ⟨r, hr, Or.inl rfl, (isActionable_iff_of_policyOf hread).mpr htarget⟩
    · exact ⟨r', hr', Or.inr hjoins, (isActionable_iff_of_policyOf hread').mpr htarget⟩

end Cedar

/-! ## Role bindings -/

namespace RoleTable

variable {t : RoleTable}

/-- The policies of assignments have the actions of a role. -/
theorem isActionable_of_mem_policies {as : List Assignment} {ps : PolicySet}
    (h : t.policies as = .ok ps) {p : Policy} (hp : p ∈ ps) : p.isActionable = true := by
  rw [policies_eq, ifKnown_eq_ok_iff] at h
  obtain ⟨hknown, rfl⟩ := h
  obtain ⟨a, ha, hp⟩ := List.mem_flatMap.mp hp
  obtain ⟨hd, hhd, rfl⟩ := List.mem_map.mp hp
  rw [List.mem_eraseDups] at hhd
  obtain ⟨b, hb, hhd⟩ := List.mem_flatMap.mp hhd
  have hrole : hd.role = b.role := (Binding.mem_holdings_iff.mp hhd).2.1
  have hgranting : t.granting hd.role ≠ [] :=
    hknown hd.role (List.mem_flatMap.mpr ⟨a, ha, hrole ▸ List.mem_map_of_mem hb⟩)
  have hactions : (t.policyOf hd).actions ≠ [] := by
    simpa [policyOf, Policy.ofMember, actionsOf] using hgranting
  exact Policy.isActionable_iff.mpr fun hneither => hactions hneither.1

end RoleTable

/-! ## Saved and loaded again -/

namespace PolicySet

/-- **What is mapped is loaded again.** A set that comes from role bindings is loaded from its text.
    A set that comes from Cedar policies is so exactly if each of these names an action, a resource
    or a path, or shares its identifier with one that does. -/
theorem load_save_mapped (ps : PolicySet) :
    (∀ (c : Cedar.Config) (qs : List Cedar.Policy), c.merge qs = .ok ps →
      (load (utf8 (save ps)) = .ok ps ↔
        ∀ q ∈ qs, ∃ q' ∈ qs, Cedar.SharesId q q' ∧ q'.NamesTarget)) ∧
    ∀ (t : RoleTable) (as : List Assignment), t.policies as = .ok ps →
      load (utf8 (save ps)) = .ok ps := by
  constructor
  · intro c qs h
    rw [load_save_eq_ok_iff, Cedar.isActionable_merge_iff h]
  · intro t as h
    rw [load_save_eq_ok_iff]
    exact fun p hp => RoleTable.isActionable_of_mem_policies h hp

/-- Two permits under one identifier, for anything and for one action on anything. -/
def anythingAndView : List Cedar.Policy :=
  [{ effect := .permit, annotations := [("id", "x")] },
   { effect := .permit, annotations := [("id", "x")], action := .eq ⟨"Action", "view"⟩ }]

/-- The viewers of an album. -/
def albumViewers : List Assignment := [⟨"album", [⟨"roles/viewer", ["user:alice", "user:bob"]⟩]⟩]

theorem load_save_mapped_view :
    (∃ ps, ({} : Cedar.Config).merge anythingAndView = .ok ps ∧
      load (utf8 (save ps)) = .ok ps) ∧
    ∃ ps, RoleTable.cloud.policies albumViewers = .ok ps ∧ ps.length = 2 ∧
      load (utf8 (save ps)) = .ok ps := by
  constructor
  · obtain ⟨ps, hmerge⟩ : ∃ ps, ({} : Cedar.Config).merge anythingAndView = .ok ps := ⟨_, rfl⟩
    refine ⟨ps, hmerge, ((load_save_mapped ps).1 {} anythingAndView hmerge).mpr ?_⟩
    intro q hq
    -- both come together with the second, which names its action
    have hshares : ∀ q ∈ anythingAndView, Cedar.SharesId q anythingAndView[1] := by
      simp only [anythingAndView, List.forall_mem_cons]
      exact ⟨Or.inr (by decide), Or.inl rfl, by simp⟩
    exact ⟨anythingAndView[1], List.getElem_mem _, hshares q hq, Or.inl (by decide)⟩
  · obtain ⟨ps, hps, hlength⟩ :
        ∃ ps, RoleTable.cloud.policies albumViewers = .ok ps ∧ ps.length = 2 := ⟨_, rfl, rfl⟩
    exact ⟨ps, hps, hlength, (load_save_mapped ps).2 RoleTable.cloud albumViewers hps⟩

/-- But a permit for anything reads as a policy that is not loaded from its text. -/
theorem load_save_anything :
    ¬ ∀ (c : Cedar.Config) (qs : List Cedar.Policy) (ps : PolicySet), c.merge qs = .ok ps →
      load (utf8 (save ps)) = .ok ps := by
  intro h
  have hload := h {} [{ effect := .permit }] [{ subject := { members := ["any"] } }] rfl
  rw [load_save_eq_ok_iff] at hload
  exact absurd (hload _ List.mem_cons_self) (by decide)

end PolicySet

end AccessPolicy
