import AccessPolicy.Proofs.Cedar.Merging
import Mathlib.Data.Finset.Dedup

/-!
# Cedar policies in another order

Cedar policies make the same policies in any order. The order decides which policy of an identifier
comes first, and so where the policy stands that they make together, which member or action it names
first, and which actions it repeats. It decides neither about success nor about what the policies
say.

* `Content`: what a policy says, with its members and actions as sets.
* `filterMap_firsts_perm`: the policies that are first under their identifiers, in another order.
* `content_collected_perm`, `content_collected_of_joins`: what comes together does not depend on the
  order, nor on the policy around which it comes together.
* `merge_perm`: the backward direction for Cedar policies in another order.
-/

namespace AccessPolicy.Cedar

open Outcome

/-! ## What a policy says -/

/-- A policy with its members and actions as sets. -/
structure Content where
  /-- The policy without members and actions. -/
  frame : AccessPolicy.Policy
  members : Finset String
  actions : Finset Action

/-- What a policy says. -/
def content (p : AccessPolicy.Policy) : Content where
  frame := { p with subject := { p.subject with members := [] }, actions := [] }
  members := p.subject.members.toFinset
  actions := p.actions.toFinset

/-- Policies say the same if they have one identifier, agree, and have the same members and
    actions. -/
theorem content_eq_of_agree {p q : AccessPolicy.Policy} (hid : p.id = q.id) (h : Agree p q)
    (hmembers : ∀ m, m ∈ p.subject.members ↔ m ∈ q.subject.members)
    (hactions : ∀ a, a ∈ p.actions ↔ a ∈ q.actions) : content p = content q := by
  unfold content
  rw [Content.mk.injEq]
  refine ⟨?_, ?_, ?_⟩
  · simp only [hid, h.info, h.type, h.providerId, h.object, h.condition]
  · ext m
    simpa using hmembers m
  · ext a
    simpa using hactions a

/-! ## The first under each identifier -/

/-- A list in another order has others that are first under their identifiers. What is read off them
    is the same, provided that it is the same for all policies with one identifier. -/
theorem filterMap_firsts_perm {β : Type} {rs rs' : List AccessPolicy.Policy} (h : rs.Perm rs')
    {f : AccessPolicy.Policy → Option β}
    (hf : ∀ r ∈ rs, ∀ r' ∈ rs, Joins r r' → f r = f r') :
    ((firsts rs).filterMap f).Perm ((firsts rs').filterMap f) := by
  induction h generalizing f with
  | nil => exact .rfl
  | @cons p rs rs' _ ih =>
    have hrest : ∀ r ∈ rs, ∀ r' ∈ rs, Joins r r' → f r = f r' := fun r hr r' hr' =>
      hf r (List.mem_cons_of_mem p hr) r' (List.mem_cons_of_mem p hr')
    -- leaving out what joins `p` reads nothing off it, and that is the same under one identifier
    have hothers := ih (f := fun q => if ¬ Joins p q then f q else none) <| by
      intro r hr r' hr' hjoins
      have hsame : Joins p r ↔ Joins p r' := by
        unfold Joins
        rw [hjoins.2]
      simp only [hsame, hrest r hr r' hr' hjoins]
    rw [firsts, firsts, List.filterMap_cons, List.filterMap_cons, List.filterMap_filter,
      List.filterMap_filter]
    simp only [decide_eq_true_eq]
    cases f p with
    | none => exact hothers
    | some b => exact hothers.cons b
  | swap p q rs =>
    simp only [firsts, List.filter_cons, List.filter_filter]
    by_cases hjoins : Joins q p
    · have hp : f p = f q :=
        hf p (List.mem_cons_of_mem q List.mem_cons_self) q List.mem_cons_self (joins_symm hjoins)
      simp only [hjoins, joins_symm hjoins, not_true_eq_false, decide_false, Bool.false_eq_true,
        if_false, List.filterMap_cons, hp, Bool.and_comm]
      exact .rfl
    · have hjoins' : ¬ Joins p q := fun h => hjoins (joins_symm h)
      simp only [hjoins, hjoins', not_false_eq_true, decide_true, if_true, Bool.and_comm]
      exact (List.Perm.swap p q _).filterMap f
  | trans h₁ _ ih₁ ih₂ =>
    exact (ih₁ hf).trans (ih₂ fun r hr r' hr' =>
      hf r (h₁.mem_iff.mpr hr) r' (h₁.mem_iff.mpr hr'))

/-! ## What comes together -/

section Collected

variable {rs rs' : List AccessPolicy.Policy} {r r' : AccessPolicy.Policy}

theorem companions_perm (h : rs.Perm rs') (r : AccessPolicy.Policy) :
    (companions rs r).Perm (companions rs' r) := by
  unfold companions
  split_ifs
  · exact h.filter _
  · exact .rfl

theorem companions_of_joins (h : Joins r r') : companions rs r = companions rs r' := by
  unfold companions
  rw [h.2, if_pos h.1, if_pos h.1]

theorem mem_companions_self (h : r ∈ rs) : r ∈ companions rs r := by
  unfold companions
  split_ifs
  · exact List.mem_filter.mpr ⟨h, by simp⟩
  · exact List.mem_singleton_self r

theorem mem_members_collected {m : String} :
    m ∈ (collected rs r).subject.members ↔ ∃ q ∈ companions rs r, m ∈ q.subject.members := by
  unfold collected
  rw [List.mem_eraseDups, List.mem_flatMap]

theorem mem_actions_collected (h : r ∈ rs) {a : Action} :
    a ∈ (collected rs r).actions ↔ ∃ q ∈ companions rs r, a ∈ q.actions := by
  unfold collected
  rw [List.mem_append, List.mem_eraseDups, List.mem_filter, List.mem_flatMap]
  constructor
  · rintro (ha | ⟨ha, -⟩)
    · exact ⟨r, mem_companions_self h, ha⟩
    · exact ha
  · intro ha
    by_cases hown : a ∈ r.actions
    · exact Or.inl hown
    · exact Or.inr ⟨ha, by simpa using hown⟩

theorem content_collected_perm (h : rs.Perm rs') (hr : r ∈ rs) :
    content (collected rs r) = content (collected rs' r) := by
  have hr' : r ∈ rs' := h.mem_iff.mp hr
  refine content_eq_of_agree rfl ⟨rfl, rfl, rfl, rfl, rfl⟩ (fun m => ?_) (fun a => ?_)
  · simp only [mem_members_collected, (companions_perm h r).mem_iff]
  · simp only [mem_actions_collected hr, mem_actions_collected hr', (companions_perm h r).mem_iff]

theorem content_collected_of_joins (hconsistent : Consistent rs) (hr : r ∈ rs) (hr' : r' ∈ rs)
    (h : Joins r r') : content (collected rs r) = content (collected rs r') := by
  obtain ⟨hinfo, htype, hprovider, hobject, hcondition⟩ :=
    agree_of_together hconsistent hr hr' (Or.inr h)
  refine content_eq_of_agree h.2 ⟨hinfo, htype, hprovider, hobject, hcondition⟩ (fun m => ?_)
    (fun a => ?_)
  · rw [mem_members_collected, mem_members_collected, companions_of_joins h]
  · rw [mem_actions_collected hr, mem_actions_collected hr', companions_of_joins h]

end Collected

/-! ## Another order -/

theorem consistent_perm {rs rs' : List AccessPolicy.Policy} (h : rs.Perm rs')
    (hconsistent : Consistent rs) : Consistent rs' := by
  refine (h.pairwise_iff fun {p q} hpq hjoins => ?_).mp hconsistent
  exact (hpq (joins_symm hjoins)).symm

theorem map_content_gather_perm {rs rs' : List AccessPolicy.Policy} (h : rs.Perm rs')
    (hmembers : ∀ r ∈ rs, r.subject.members.Nodup) (hconsistent : Consistent rs) :
    ((gather rs).map content).Perm ((gather rs').map content) := by
  have hmembers' : ∀ r ∈ rs', r.subject.members.Nodup := fun r hr =>
    hmembers r (h.mem_iff.mpr hr)
  have hsame : (firsts rs').map (fun r => content (collected rs' r)) =
      (firsts rs').map fun r => content (collected rs r) := by
    apply List.map_congr_left
    intro r hr
    exact (content_collected_perm h (h.mem_iff.mpr (mem_of_mem_firsts hr))).symm
  have hfirsts := filterMap_firsts_perm h (f := fun r => some (content (collected rs r)))
    fun r hr r' hr' hjoins =>
      congrArg some (content_collected_of_joins hconsistent hr hr' hjoins)
  rw [List.filterMap_eq_map', ← hsame] at hfirsts
  rw [gather_eq hmembers, gather_eq hmembers', List.map_map, List.map_map]
  exact hfirsts

namespace Config

variable {c : Config} {qs qs' : List Policy}

theorem exists_merge_perm (h : qs.Perm qs') {ps : PolicySet} (hps : c.merge qs = .ok ps) :
    ∃ ps', c.merge qs' = .ok ps' ∧ (ps.map content).Perm (ps'.map content) := by
  obtain ⟨rs, hrs, hconsistent, rfl⟩ := merge_eq_ok_iff.mp hps
  obtain ⟨rs', hrs', hperm⟩ := exists_mapM_perm h hrs
  refine ⟨gather rs', merge_eq_ok_iff.mpr ⟨rs', hrs', consistent_perm hperm hconsistent, rfl⟩, ?_⟩
  refine map_content_gather_perm hperm (fun r hr => ?_) hconsistent
  obtain ⟨q, _, hq⟩ := exists_of_mem_right (mapM_eq_ok_iff.mp hrs) hr
  exact nodup_members_of_policyOf hq

/-- **Order.** Cedar policies in another order make a policy set exactly if they do in the first
    order. The two sets then say the same: they hold the same policies equally often, where the
    members and the actions of a policy count as sets. -/
theorem merge_perm (h : qs.Perm qs') :
    ((∃ ps, c.merge qs = .ok ps) ↔ ∃ ps', c.merge qs' = .ok ps') ∧
      ∀ ps ps', c.merge qs = .ok ps → c.merge qs' = .ok ps' →
        (ps.map content).Perm (ps'.map content) := by
  refine ⟨⟨?_, ?_⟩, fun ps ps' hps hps' => ?_⟩
  · rintro ⟨ps, hps⟩
    obtain ⟨ps', hps', -⟩ := exists_merge_perm h hps
    exact ⟨ps', hps'⟩
  · rintro ⟨ps', hps'⟩
    obtain ⟨ps, hps, -⟩ := exists_merge_perm h.symm hps'
    exact ⟨ps, hps⟩
  · obtain ⟨ps'', hps'', hcontent⟩ := exists_merge_perm h hps
    obtain rfl : ps'' = ps' := Except.ok.inj (hps''.symm.trans hps')
    exact hcontent

/-- Two Cedar policies of one identifier and one without, which make other lists the other way
    round. -/
theorem merge_perm_reverse :
    let qs : List Policy :=
      [{ effect := .permit, annotations := [("id", "a")], principal := .eq ⟨"User", "alice"⟩
         action := .withinAny [⟨"Action", "view"⟩, ⟨"Action", "view"⟩] },
       { effect := .permit, action := .eq ⟨"Action", "list"⟩ },
       { effect := .permit, annotations := [("id", "a")], principal := .eq ⟨"User", "bob"⟩
         action := .eq ⟨"Action", "edit"⟩ }]
    ∃ ps ps', ({} : Config).merge qs = .ok ps ∧ ({} : Config).merge qs.reverse = .ok ps' ∧
      ps.map AccessPolicy.Policy.id = [some "a", none] ∧
      ps'.map AccessPolicy.Policy.id = [some "a", none] ∧ ps ≠ ps' ∧
      (ps.map content).Perm (ps'.map content) := by
  intro qs
  have horder := merge_perm (c := {}) (List.reverse_perm qs).symm
  exact ⟨_, _, rfl, rfl, by decide, by decide, by decide, horder.2 _ _ rfl rfl⟩

end Config

end AccessPolicy.Cedar
