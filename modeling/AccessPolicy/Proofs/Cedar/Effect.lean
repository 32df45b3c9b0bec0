import AccessPolicy.Proofs.Cedar.Gather
import AccessPolicy.Proofs.Cedar.Pieces
import AccessPolicy.Proofs.Cedar.Reading

/-!
# Effects on the way through a policy

A policy has no effect of its own. The effect of a Cedar policy is read into the marks of its
actions and into the action of its condition, and comes back from these two. Where neither can hold
it, it is lost.

* `groups_reading`: the one group of actions of a policy that was read.
* `effect_split_merge`: the Cedar policies whose effect comes back.
-/

namespace AccessPolicy.Cedar

open Outcome

/-- The effect of a Cedar policy has a place in the policy that is read. What permits must not read
    as a denial. What forbids must read as one, or exclude an action. -/
def Policy.KeepsEffect (q : Policy) : Prop :=
  match q.effect with
  | .permit => ¬ q.ReadsDenied
  | .forbid => q.ReadsDenied ∨ (q.action.entities ≠ [] ∧ q.ReadsExcluded)

theorem Policy.keepsEffect_iff_of_permit {q : Policy} (h : q.effect = .permit) :
    q.KeepsEffect ↔ ¬ q.ReadsDenied := by
  rw [Policy.KeepsEffect, h]

theorem Policy.keepsEffect_iff_of_forbid {q : Policy} (h : q.effect = .forbid) :
    q.KeepsEffect ↔ q.ReadsDenied ∨ (q.action.entities ≠ [] ∧ q.ReadsExcluded) := by
  rw [Policy.KeepsEffect, h]

namespace Config

variable {c : Config}

/-- A single Cedar policy is read alone. -/
theorem merge_singleton_eq_ok_iff {q : Policy} {ps : PolicySet} :
    c.merge [q] = .ok ps ↔ ∃ p, c.policyOf q = .ok p ∧ ps = [p] := by
  rw [merge_eq_ok_iff]
  simp only [mapM_eq_ok_iff, List.forall₂_cons_left_iff, List.forall₂_nil_left_iff]
  constructor
  · rintro ⟨_, ⟨p, _, hp, rfl, rfl⟩, -, rfl⟩
    exact ⟨p, hp, by simp [gather_cons, joining, others]⟩
  · rintro ⟨p, hp, rfl⟩
    exact ⟨[p], ⟨p, [], hp, rfl, rfl⟩, List.pairwise_singleton _ _,
      by simp [gather_cons, joining, others]⟩

theorem groups_reading {q : Policy} {n : Notes} {member : String} {ids : List String}
    {asset : Option String} :
    c.groups (q.reading n member ids asset) =
      if q.isExclusion n = true ∧ ids ≠ [] then
        [⟨.forbid, c.actionScope (q.reading n member ids asset).excluded, true⟩]
      else
        [⟨Effect.ofPermit (!(q.reading n member ids asset).denies),
          c.actionScope (q.reading n member ids asset).included, false⟩] := by
  split_ifs with h
  · apply groups_of_included_eq_nil
    · rw [included_reading, if_pos h.1]
    · rw [excluded_reading, if_pos h.1]
      simpa using h.2
  · apply groups_of_excluded_eq_nil
    rw [excluded_reading]
    split_ifs with hexclusion
    · have hids : ids = [] := by simpa [hexclusion] using h
      rw [hids, List.map_nil]
    · rfl

/-- A Cedar policy that can be read and mapped again comes back as one Cedar policy. It has the same
    effect exactly if this effect has a place in the policy between the two. -/
theorem effect_split_merge {q : Policy} {ps : PolicySet} {qs : List Policy}
    (hmerge : c.merge [q] = .ok ps) (hsplit : c.split ps = .ok qs) :
    ∃ q', qs = [q'] ∧ (q'.effect = q.effect ↔ q.KeepsEffect) := by
  obtain ⟨p, hp, rfl⟩ := merge_singleton_eq_ok_iff.mp hmerge
  obtain ⟨n, member, ids, asset, hn, -, hids, -, rfl⟩ := policyOf_eq_ok_iff.mp hp
  obtain ⟨first, others, hfirst, hothers, rfl⟩ := split_cons_eq_ok_iff.mp hsplit
  obtain ⟨scopes, hscopes, rfl⟩ := expand_eq_ok_iff.mp hfirst
  have hprincipals : principals (q.reading n member ids asset) = [member] := rfl
  rw [hprincipals, List.forall₂_cons_left_iff] at hscopes
  obtain ⟨s, _, -, hnil, rfl⟩ := hscopes
  rw [List.forall₂_nil_left_iff.mp hnil, ← Except.ok.inj hothers, List.flatMap_singleton,
    List.append_nil, groups_reading]
  have hentities : q.action.entities ≠ [] ↔ ids ≠ [] := by
    rw [entities_of_scopeActions hids, Ne, Ne, List.map_eq_nil_iff]
  have hexclusion := isExclusion_iff hn
  have hdenies : (q.reading n member ids asset).denies = true ↔ q.ReadsDenied :=
    denies_reading_iff hn
  cases heffect : q.effect with
  | permit =>
    -- nothing is excluded, so the effect is that of the condition
    have hnot : ¬ q.ReadsExcluded := by
      rintro ⟨hforbid, -⟩
      rw [heffect] at hforbid
      cases hforbid
    rw [if_neg fun h => hnot (hexclusion.mp h.1)]
    refine ⟨_, rfl, ?_⟩
    rw [piece_effect, Policy.keepsEffect_iff_of_permit heffect, ← hdenies]
    simp [Effect.ofPermit]
  | forbid =>
    rw [Policy.keepsEffect_iff_of_forbid heffect, hentities, ← hdenies]
    split_ifs with h
    · refine ⟨_, rfl, ?_⟩
      rw [piece_effect]
      exact iff_of_true rfl (Or.inr ⟨h.2, hexclusion.mp h.1⟩)
    · refine ⟨_, rfl, ?_⟩
      rw [piece_effect, or_iff_left fun h' => h ⟨hexclusion.mpr h'.2, h'.1⟩]
      simp [Effect.ofPermit]

/-- What forbids an action comes back as what forbids it. -/
theorem effect_split_merge_forbid :
    let q : Policy :=
      { effect := .forbid, principal := .within ⟨"Group", "staff"⟩,
        action := .eq ⟨"Action", "edit"⟩ }
    ∃ ps qs, ({} : Config).merge [q] = .ok ps ∧ ({} : Config).split ps = .ok qs ∧
      ∃ q', qs = [q'] ∧ q'.effect = .forbid := by
  intro q
  obtain ⟨ps, hmerge⟩ : ∃ ps, ({} : Config).merge [q] = .ok ps := ⟨_, rfl⟩
  obtain ⟨qs, hsplit⟩ : ∃ qs, ({} : Config).split ps = .ok qs := by
    obtain rfl := Except.ok.inj hmerge
    exact ⟨_, rfl⟩
  obtain ⟨q', hq', heffect⟩ := effect_split_merge hmerge hsplit
  refine ⟨ps, qs, hmerge, hsplit, q', hq', heffect.mpr ?_⟩
  exact Or.inr ⟨by decide, by decide, by decide⟩

/-- What forbids everything to everyone comes back as what permits it, and so does what forbids an
    action where only the condition is missing for a denial. -/
theorem effect_lost :
    let all : Policy := { effect := .forbid }
    let view : Policy :=
      { effect := .forbid, annotations := [("conditionAction", "deny")],
        action := .eq ⟨"Action", "view"⟩ }
    (({} : Config).merge [all] >>= ({} : Config).split) = .ok [{ effect := .permit }] ∧
    (({} : Config).merge [view] >>= ({} : Config).split) =
      .ok [{ effect := .permit, action := .eq ⟨"Action", "view"⟩ }] := by
  decide

end Config

end AccessPolicy.Cedar
