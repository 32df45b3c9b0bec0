import AccessPolicy.Proofs.Reconcile.Pairing

/-!
# Comparisons without a difference

A comparison reports no difference exactly if the two sets hold the same policies equally often,
where policies that differ in no part count as one. The pairing never lets a policy take a partner
that another one needs: whatever it takes without a difference could have been the partner of its
own equals only.

* `perm_canonical_iff`: two sets with the same canonical policies, as often, are the same up to
  order and equivalence.
* `perm_after`: a policy takes its partner away and nothing else.
* `all_equal_iff`: when every policy is equal and nothing is left.
* `reconcile_eq_nil_iff`: when a comparison reports no difference.
-/

namespace AccessPolicy

/-! ## The same policies equally often -/

namespace PolicySet

/-- The second set can be rearranged so that it agrees place by place with the first. -/
theorem perm_canonical_iff (A B : PolicySet) :
    (A.map Policy.canonical).Perm (B.map Policy.canonical) ↔
      ∃ C : PolicySet, C.Perm B ∧ List.Forall₂ (fun p q => p.equivalent q) A C := by
  have hsplit : (A.map Policy.canonical).Perm (B.map Policy.canonical) ↔
      ∃ C : PolicySet, A.map Policy.canonical = C.map Policy.canonical ∧ C.Perm B := by
    change _ ↔ Relation.Comp (fun xs ys => xs = ys.map Policy.canonical) List.Perm _ B
    rw [List.eq_map_comp_perm]
  have hpairs : ∀ C : PolicySet, A.map Policy.canonical = C.map Policy.canonical ↔
      List.Forall₂ (fun p q => p.equivalent q) A C := by
    intro C
    rw [← List.forall₂_eq_eq_eq, List.forall₂_map_left_iff, List.forall₂_map_right_iff]
    simp only [Policy.equivalent_iff_canonical]
  rw [hsplit]
  simp only [hpairs, and_comm]

/-- Every policy has as many equals in the one set as in the other. -/
theorem perm_canonical_iff_countP (A B : PolicySet) :
    (A.map Policy.canonical).Perm (B.map Policy.canonical) ↔
      ∀ p : Policy, A.countP p.equivalent = B.countP p.equivalent := by
  have hcount : ∀ (p : Policy) (ps : PolicySet),
      ps.countP p.equivalent = (ps.map Policy.canonical).count p.canonical := by
    intro p ps
    rw [List.count, List.countP_map]
    apply List.countP_congr
    intro q _
    rw [Policy.equivalent_iff_canonical, Function.comp_apply, beq_iff_eq]
    exact eq_comm
  simp only [hcount]
  rw [List.perm_iff_count]
  constructor
  · exact fun h p => h p.canonical
  · intro h c
    by_cases hc : ∃ p : Policy, p.canonical = c
    · obtain ⟨p, rfl⟩ := hc
      exact h p
    · have hnone : ∀ ps : PolicySet, (ps.map Policy.canonical).count c = 0 := by
        intro ps
        rw [List.count_eq_zero, List.mem_map]
        exact fun ⟨p, _, hp⟩ => hc ⟨p, hp⟩
      rw [hnone, hnone]

end PolicySet

/-! ## Policies that all find an equal partner -/

namespace Placed

variable {rest : Placed} {p : Policy}

theorem exists_partner? (h : ∃ r ∈ rest, p.equivalent r.2) :
    ∃ q, rest.partner? p = some q ∧ p.equivalent q.2 := by
  cases hpartner : rest.partner? p with
  | some q => exact ⟨q, rfl, (partner?_eq_some hpartner).2.2 h⟩
  | none =>
    obtain ⟨r, hr, hequivalent⟩ := h
    exact absurd (Policy.isSame_of_equivalent hequivalent) (partner?_eq_none_iff.mp hpartner r hr)

/-- A policy takes its partner away and leaves all others. -/
theorem perm_after (hrest : (rest.map Prod.fst).Nodup) {q : Nat × Policy}
    (h : rest.partner? p = some q) : rest.Perm (q :: rest.after p) := by
  have hq : q ∈ rest := (partner?_eq_some h).1
  have hafter : rest.after p = rest.erase q := by
    rw [hrest.of_map.erase_eq_filter]
    unfold after without
    rw [h]
    apply List.filter_congr
    intro r hr
    have hplace : r.1 = q.1 ↔ r = q :=
      ⟨fun e => List.inj_on_of_nodup_map hrest hr hq e, fun e => e ▸ rfl⟩
    rw [Bool.eq_iff_iff]
    simp [hplace]
  rw [hafter]
  exact List.perm_cons_erase hq

theorem nodup_after (hrest : (rest.map Prod.fst).Nodup) (p : Policy) :
    ((rest.after p).map Prod.fst).Nodup :=
  hrest.sublist ((sublist_after rest p).map Prod.fst)

/-- All policies find an equal partner and nothing is left exactly if the same policies are
    available, equally often. -/
theorem all_equal_iff (hrest : (rest.map Prod.fst).Nodup) (ps : List Policy) :
    (∀ i p, ps[i]? = some p → (rest.available ps i).changeOf p = .equal) ∧
        rest.available ps ps.length = [] ↔
      (ps.map Policy.canonical).Perm ((rest.map Prod.snd).map Policy.canonical) := by
  induction ps generalizing rest with
  | nil => simp [available_zero, List.nil_perm]
  | cons p ps ih =>
    have hfirst : (∀ i p', (p :: ps)[i]? = some p' →
          (rest.available (p :: ps) i).changeOf p' = .equal) ↔
        rest.changeOf p = .equal ∧ ∀ i p', ps[i]? = some p' →
          ((rest.after p).available ps i).changeOf p' = .equal := by
      constructor
      · exact fun h => ⟨h 0 p rfl, fun i p' hp => h (i + 1) p' hp⟩
      · rintro ⟨hzero, hsucc⟩ (_ | i) p' hp
        · obtain rfl : p = p' := Option.some.inj hp
          exact hzero
        · exact hsucc i p' hp
    rw [hfirst, List.length_cons, available_cons_succ, and_assoc, ih (nodup_after hrest p),
      changeOf_eq_equal_iff]
    by_cases h : ∃ r ∈ rest, p.equivalent r.2
    · obtain ⟨q, hq, hequivalent⟩ := exists_partner? h
      have hperm := ((perm_after hrest hq).map Prod.snd).map Policy.canonical
      rw [List.map_cons, List.map_cons, ← Policy.equivalent_iff_canonical.mp hequivalent] at hperm
      rw [List.map_cons, hperm.congr_right, List.perm_cons]
      exact and_iff_right h
    · -- an equal policy that is not available is missing in the rearranged set, too
      have hmissing : p.canonical ∉ (rest.map Prod.snd).map Policy.canonical := by
        rw [List.map_map, List.mem_map]
        rintro ⟨r, hr, hcanonical⟩
        exact h ⟨r, hr, Policy.equivalent_iff_canonical.mpr hcanonical.symm⟩
      constructor
      · exact fun hall => absurd hall.1 h
      · exact fun hperm => absurd (hperm.subset List.mem_cons_self) hmissing

end Placed

/-! ## Comparisons -/

namespace PolicySet

/-- A comparison reports no difference exactly if every policy finds an equal partner and nothing is
    left. -/
theorem reconcile_eq_nil_iff_forall (A B : PolicySet) :
    reconcile A B true = [] ↔
      (∀ i p, A[i]? = some p →
        ((Placed.ofList 0 B).available A i).changeOf p = .equal) ∧
      (Placed.ofList 0 B).available A A.length = [] := by
  change (compare A B).filter (fun e => e.change ≠ .equal) = [] ↔ _
  have hall : (compare A B).filter (fun e => e.change ≠ .equal) = [] ↔
      ∀ e ∈ compare A B, e.change = .equal := by
    rw [List.filter_eq_nil_iff]
    simp
  rw [hall]
  constructor
  · intro h
    refine ⟨fun i p hp => h _ (List.mem_of_getElem? (getElem?_compare hp)), ?_⟩
    rw [List.eq_nil_iff_forall_not_mem]
    intro q hq
    have hadded := h (.ofPolicy q.1 q.2 .added) (mem_compare_of_available hq)
    cases hadded
  · rintro ⟨hequal, hleft⟩ e he
    rcases mem_compare he with ⟨i, p, hp, rfl⟩ | ⟨q, hq, -⟩
    · exact hequal i p hp
    · rw [hleft] at hq
      cases hq

theorem reconcile_eq_nil_iff_perm (A B : PolicySet) :
    reconcile A B true = [] ↔ (A.map Policy.canonical).Perm (B.map Policy.canonical) := by
  have hnodup : ((Placed.ofList 0 B).map Prod.fst).Nodup := by
    rw [Placed.places_ofList]
    exact List.nodup_range
  rw [reconcile_eq_nil_iff_forall, Placed.all_equal_iff hnodup, Placed.policies_ofList]

/-- Where no difference is reported, all entries are those of equal policies of the first set. -/
theorem reconcile_of_reconcile_eq_nil {A B : PolicySet} (h : reconcile A B true = []) :
    reconcile A B false = A.mapIdx fun i p => .ofPolicy i p .equal := by
  obtain ⟨hequal, hleft⟩ := (reconcile_eq_nil_iff_forall A B).mp h
  change compare A B = _
  rw [compare_eq, hleft]
  change _ ++ [] = _
  rw [List.append_nil]
  refine List.ext_getElem (by simp) fun i hi hi' => ?_
  rw [List.length_mapIdx] at hi
  rw [List.getElem_mapIdx, List.getElem_mapIdx, hequal i A[i] (List.getElem?_eq_getElem hi)]

/-- **No difference.** A comparison reports nothing but equal policies exactly if the second set can
    be rearranged so that its policies do not differ from those of the first, place by place, or if
    every policy has equally many equals in both sets. Then it has one entry for every policy of
    the first set, in order, and none else. It is so for a set and any rearrangement of it. Members
    count as a set and actions count up to order. -/
theorem reconcile_eq_nil_iff (A B : PolicySet) :
    (reconcile A B true = [] ↔
      ∃ C : PolicySet, C.Perm B ∧ List.Forall₂ (fun p q => p.equivalent q) A C) ∧
    (reconcile A B true = [] ↔ ∀ p : Policy, A.countP p.equivalent = B.countP p.equivalent) ∧
    (reconcile A B true = [] →
      reconcile A B false = A.mapIdx fun i p => .ofPolicy i p .equal) ∧
    (A.Perm B → reconcile A B false = A.mapIdx fun i p => .ofPolicy i p .equal) ∧
    ∀ p q : Policy, p.equivalent q ↔
      p.id = q.id ∧ p.info = q.info ∧ p.object = q.object ∧ p.condition = q.condition ∧
        p.subject.type = q.subject.type ∧ p.subject.providerId = q.subject.providerId ∧
        (∀ m, m ∈ p.subject.members ↔ m ∈ q.subject.members) ∧ p.actions.Perm q.actions := by
  refine ⟨?_, ?_, reconcile_of_reconcile_eq_nil, ?_, fun p q => Policy.equivalent_iff⟩
  · rw [reconcile_eq_nil_iff_perm, perm_canonical_iff]
  · rw [reconcile_eq_nil_iff_perm, perm_canonical_iff_countP]
  · intro h
    exact reconcile_of_reconcile_eq_nil
      ((reconcile_eq_nil_iff_perm A B).mpr (h.map Policy.canonical))

/-- A repeated policy without an identifier, and one with an identifier, once rearranged in members
    and actions as well and once only moved. -/
theorem reconcile_eq_nil_rearranged :
    let p : Policy := { subject := { members := ["user:alice"] }, actions := [⟨"view", "", false⟩] }
    let q : Policy :=
      { id := some "q", subject := { members := ["user:bob", "user:alice"] }
        actions := [⟨"view", "", false⟩, ⟨"edit", "", false⟩] }
    let q' : Policy :=
      { id := some "q", subject := { members := ["user:alice", "user:bob", "user:alice"] }
        actions := [⟨"edit", "", false⟩, ⟨"view", "", false⟩] }
    PolicySet.reconcile [p, q, p] [q', p, p] true = [] ∧
      PolicySet.reconcile [p, q, p] [q', p, p] false =
        [⟨0, "#0", .equal⟩, ⟨1, "'q'", .equal⟩, ⟨2, "#2", .equal⟩] ∧
      PolicySet.reconcile [p, q, p] [p, p, q] false =
        [⟨0, "#0", .equal⟩, ⟨1, "'q'", .equal⟩, ⟨2, "#2", .equal⟩] := by
  intro p q q'
  have hp : p.equivalent p := Policy.equivalent_iff_canonical.mpr rfl
  have hq : q.equivalent q' := by
    refine Policy.equivalent_iff.mpr ⟨rfl, rfl, rfl, rfl, rfl, rfl, fun m => ?_, by decide⟩
    simp [q, q', or_comm]
  have hnil : PolicySet.reconcile [p, q, p] [q', p, p] true = [] :=
    (reconcile_eq_nil_iff [p, q, p] [q', p, p]).1.mpr
      ⟨[p, q', p], by decide, .cons hp (.cons hq (.cons hp .nil))⟩
  have hequal := (reconcile_eq_nil_iff [p, q, p] [q', p, p]).2.2.1 hnil
  have hmoved := (reconcile_eq_nil_iff [p, q, p] [p, p, q]).2.2.2.1 (by decide)
  exact ⟨hnil, hequal.trans (by decide), hmoved.trans (by decide)⟩

end PolicySet

end AccessPolicy
