import AccessPolicy.Cedar.Mapping
import AccessPolicy.Proofs.Distinct
import AccessPolicy.Proofs.Outcome
import Mathlib.Data.List.Pairwise

/-!
# Policies that come together

The backward direction reads every Cedar policy as a policy and takes up the policies one by one.
Those with one identifier come together in the place of the first, so the run is described by two
things: which lists of policies fit together, and what is gathered of a list.

* `disagreement?_eq_none_iff`: the policies that can be merged.
* `foldlM_absorb_eq_ok_iff`: the run succeeds for the lists in which policies with one identifier
  can be merged pairwise, and gives what is gathered.
* `merge_eq_ok_iff`: the same for the backward direction as a whole.
* `exists_collects_of_mem_gather`, `exists_mem_gather`: a gathered policy collects what comes
  together with one policy of the list, and every policy of the list is in one of them.
-/

namespace AccessPolicy.Cedar

open Outcome

/-! ## Policies that can be merged -/

/-- A policy joins another one under its identifier. Without an identifier it joins none. -/
def Joins (p q : AccessPolicy.Policy) : Prop := q.id.isSome ∧ p.id = q.id

instance : DecidableRel Joins := fun p q => inferInstanceAs (Decidable (q.id.isSome ∧ p.id = q.id))

/-- Two policies say the same, apart from members and actions. -/
structure Agree (p q : AccessPolicy.Policy) : Prop where
  info : p.info = q.info
  type : p.subject.type = q.subject.type
  providerId : p.subject.providerId = q.subject.providerId
  object : p.object = q.object
  condition : p.condition = q.condition

/-- Two policies can be merged: they agree, and no action is granted by one and excluded by the
    other. -/
structure Compatible (p q : AccessPolicy.Policy) : Prop extends Agree p q where
  exclude : ∀ a ∈ p.actions, ∀ b ∈ q.actions, a.identifier = b.identifier → a.exclude = b.exclude

theorem conflict?_eq_none_iff {p q : AccessPolicy.Policy} :
    conflict? p q = none ↔
      ∀ a ∈ p.actions, ∀ b ∈ q.actions, a.identifier = b.identifier → a.exclude = b.exclude := by
  unfold conflict?
  simp only [List.find?_eq_none, List.any_eq_true, not_exists, not_and, Bool.and_eq_true,
    decide_eq_true_eq, not_not]
  constructor
  · exact fun h a ha b hb => h b hb a ha
  · exact fun h b hb a ha => h a ha b hb

theorem disagreement?_eq_none_iff {p q : AccessPolicy.Policy} :
    disagreement? p q = none ↔ Compatible p q := by
  unfold disagreement?
  constructor
  · intro h
    split_ifs at h with hinfo hsubject hobject hcondition
    rw [Option.map_eq_none_iff, conflict?_eq_none_iff] at h
    rw [not_or, not_not, not_not] at hsubject
    exact ⟨⟨not_not.mp hinfo, hsubject.1, hsubject.2, not_not.mp hobject, not_not.mp hcondition⟩, h⟩
  · rintro ⟨⟨hinfo, htype, hprovider, hobject, hcondition⟩, hexclude⟩
    rw [if_neg (not_not.mpr hinfo), if_neg (by simp [htype, hprovider]),
      if_neg (not_not.mpr hobject), if_neg (not_not.mpr hcondition), Option.map_eq_none_iff,
      conflict?_eq_none_iff]
    exact hexclude

theorem mergeInto_eq_ok_iff {p q r : AccessPolicy.Policy} :
    mergeInto p q = .ok r ↔ Compatible p q ∧ r = union p q := by
  rw [← disagreement?_eq_none_iff]
  unfold mergeInto
  split
  · rename_i what hwhat
    simp [hwhat]
  · rename_i hnone
    simp [hnone, eq_comm]

theorem compatible_union_iff {p q r : AccessPolicy.Policy} (h : Compatible p q) :
    Compatible (union p q) r ↔ Compatible p r ∧ Compatible q r := by
  constructor
  · rintro ⟨⟨hinfo, htype, hprovider, hobject, hcondition⟩, hexclude⟩
    refine ⟨⟨⟨hinfo, htype, hprovider, hobject, hcondition⟩, ?_⟩, ⟨⟨?_, ?_, ?_, ?_, ?_⟩, ?_⟩⟩
    · exact fun a ha => hexclude a (mem_addAll.mpr (Or.inl ha))
    · exact h.info.symm.trans hinfo
    · exact h.type.symm.trans htype
    · exact h.providerId.symm.trans hprovider
    · exact h.object.symm.trans hobject
    · exact h.condition.symm.trans hcondition
    · exact fun a ha => hexclude a (mem_addAll.mpr (Or.inr ha))
  · rintro ⟨⟨⟨hinfo, htype, hprovider, hobject, hcondition⟩, hp⟩, hq⟩
    refine ⟨⟨hinfo, htype, hprovider, hobject, hcondition⟩, ?_⟩
    intro a ha
    rcases mem_addAll.mp ha with ha | ha
    · exact hp a ha
    · exact hq.exclude a ha

/-- Policies are merged into one exactly when they can be merged pairwise. -/
theorem foldlM_mergeInto_eq_ok_iff {p : AccessPolicy.Policy} {qs : List AccessPolicy.Policy}
    {r : AccessPolicy.Policy} :
    qs.foldlM mergeInto p = .ok r ↔ (p :: qs).Pairwise Compatible ∧ r = qs.foldl union p := by
  induction qs generalizing p with
  | nil =>
    rw [List.foldlM_nil, pure_eq_ok_iff, List.foldl_nil]
    simp [eq_comm]
  | cons q qs ih =>
    rw [List.foldlM_cons, bind_eq_ok_iff, List.foldl_cons]
    simp only [mergeInto_eq_ok_iff, ih, List.pairwise_cons, List.forall_mem_cons]
    constructor
    · rintro ⟨_, ⟨hpq, rfl⟩, ⟨hunion, hqs⟩, rfl⟩
      simp only [compatible_union_iff hpq] at hunion
      exact ⟨⟨⟨hpq, fun r hr => (hunion r hr).1⟩, fun r hr => (hunion r hr).2, hqs⟩, rfl⟩
    · rintro ⟨⟨⟨hpq, hp⟩, hq, hqs⟩, rfl⟩
      refine ⟨_, ⟨hpq, rfl⟩, ⟨?_, hqs⟩, rfl⟩
      exact fun r hr => (compatible_union_iff hpq).mpr ⟨hp r hr, hq r hr⟩

/-! ## What is gathered -/

/-- The union of several policies takes the members and actions of all of them. -/
theorem foldl_union (p : AccessPolicy.Policy) (qs : List AccessPolicy.Policy) :
    qs.foldl union p =
      { p with
        subject := { p.subject with
          members := addAll p.subject.members (qs.flatMap fun q => q.subject.members) }
        actions := addAll p.actions (qs.flatMap AccessPolicy.Policy.actions) } := by
  induction qs generalizing p with
  | nil => rfl
  | cons q qs ih =>
    rw [List.foldl_cons, ih, List.flatMap_cons, List.flatMap_cons, addAll_append, addAll_append]
    rfl

/-- Where the first policy repeats no member and no action, the union holds those of all policies,
    each at its first occurrence. -/
theorem foldl_union_of_nodup {p : AccessPolicy.Policy} (hmembers : p.subject.members.Nodup)
    (hactions : p.actions.Nodup) (qs : List AccessPolicy.Policy) :
    qs.foldl union p =
      { p with
        subject := { p.subject with
          members := ((p :: qs).flatMap fun q => q.subject.members).eraseDups }
        actions := ((p :: qs).flatMap AccessPolicy.Policy.actions).eraseDups } := by
  rw [foldl_union, addAll_eq_eraseDups hmembers, addAll_eq_eraseDups hactions]
  rfl

/-- The policies of a list that join a policy. -/
def joining (p : AccessPolicy.Policy) (qs : List AccessPolicy.Policy) : List AccessPolicy.Policy :=
  qs.filter fun q => Joins p q

/-- The policies of a list that do not join a policy. -/
def others (p : AccessPolicy.Policy) (qs : List AccessPolicy.Policy) : List AccessPolicy.Policy :=
  qs.filter fun q => ¬ Joins p q

theorem length_others_le (p : AccessPolicy.Policy) (qs : List AccessPolicy.Policy) :
    (others p qs).length ≤ qs.length := List.length_filter_le _ _

/-- The policies that come together of a list: the first one with all that join it, and then those
    of the others. -/
def gather : List AccessPolicy.Policy → List AccessPolicy.Policy
  | [] => []
  | p :: rest => (joining p rest).foldl union p :: gather (others p rest)
termination_by ps => ps.length
decreasing_by
  have := length_others_le p rest
  simp only [List.length_cons]
  omega

@[simp]
theorem gather_nil : gather [] = [] := by
  unfold gather
  rfl

theorem gather_cons (p : AccessPolicy.Policy) (rest : List AccessPolicy.Policy) :
    gather (p :: rest) = (joining p rest).foldl union p :: gather (others p rest) := by
  rw [gather]

/-- Policies with one identifier can be merged. -/
def Consistent (ps : List AccessPolicy.Policy) : Prop :=
  ps.Pairwise fun p q => Joins p q → Compatible p q

/-! ## Policies under one identifier -/

/-- A property of pairs that only matters within a filter and within its complement may be checked
    there. -/
theorem pairwise_iff_filter {α : Type} {R : α → α → Prop} {f : α → Bool}
    (h : ∀ x y, f x ≠ f y → R x y) (xs : List α) :
    xs.Pairwise R ↔ (xs.filter f).Pairwise R ∧ (xs.filter fun x => !f x).Pairwise R := by
  induction xs with
  | nil => simp
  | cons x xs ih =>
    have hall : (∀ y ∈ xs, R x y) ↔ ∀ y ∈ xs, f x = f y → R x y := by
      constructor
      · exact fun hR y hy _ => hR y hy
      · exact fun hR y hy => (em (f x = f y)).elim (hR y hy) (h x y)
    rw [List.pairwise_cons, ih, hall]
    cases hx : f x with
    | false =>
      rw [List.filter_cons_of_neg (by simp [hx]), List.filter_cons_of_pos (by simp [hx]),
        List.pairwise_cons]
      simp only [List.mem_filter, Bool.not_eq_true']
      grind
    | true =>
      rw [List.filter_cons_of_pos hx, List.filter_cons_of_neg (by simp [hx]), List.pairwise_cons]
      simp only [List.mem_filter]
      grind

theorem joins_congr {p p' q : AccessPolicy.Policy} (h : p.id = p'.id) :
    Joins p q ↔ Joins p' q := by
  unfold Joins
  rw [h]

theorem joins_symm {p q : AccessPolicy.Policy} (h : Joins p q) : Joins q p :=
  ⟨h.2 ▸ h.1, h.2.symm⟩

theorem joining_congr {p p' : AccessPolicy.Policy} (h : p.id = p'.id)
    (qs : List AccessPolicy.Policy) : joining p qs = joining p' qs := by
  unfold joining
  simp only [joins_congr h]

theorem others_congr {p p' : AccessPolicy.Policy} (h : p.id = p'.id)
    (qs : List AccessPolicy.Policy) : others p qs = others p' qs := by
  unfold others
  simp only [joins_congr h]

theorem id_of_mergeInto {p q r : AccessPolicy.Policy} (h : mergeInto p q = .ok r) :
    r.id = p.id := by
  obtain ⟨-, rfl⟩ := mergeInto_eq_ok_iff.mp h
  rfl

/-- What joins a policy and what does not are apart. -/
theorem joins_of_joins {p q r : AccessPolicy.Policy} (hq : Joins p q) :
    Joins q r ↔ Joins p r := joins_congr hq.2.symm

theorem not_joins_of_not_joins {p q r : AccessPolicy.Policy} (hq : ¬ Joins p q) (hr : Joins p r) :
    ¬ Joins q r := by
  rintro ⟨hid, hqr⟩
  exact hq ⟨hqr ▸ hid, hr.2.trans hqr.symm⟩

/-! ## The run -/

theorem absorb_cons (q p : AccessPolicy.Policy) (rest : List AccessPolicy.Policy) :
    absorb q (p :: rest) =
      if Joins p q then mergeInto p q >>= fun r => pure (r :: rest)
      else absorb q rest >>= fun done => pure (p :: done) := rfl

/-- A run over policies already taken up changes the first of them by the policies that join it,
    and the remaining ones by the others. -/
theorem foldlM_absorb_cons_eq_ok_iff {p : AccessPolicy.Policy}
    {done qs out : List AccessPolicy.Policy} :
    qs.foldlM (fun done q => absorb q done) (p :: done) = .ok out ↔
      ∃ p' done', (joining p qs).foldlM mergeInto p = .ok p' ∧
        (others p qs).foldlM (fun done q => absorb q done) done = .ok done' ∧
        out = p' :: done' := by
  induction qs generalizing p done with
  | nil =>
    simp only [joining, others, List.filter_nil, List.foldlM_nil, pure_eq_ok_iff]
    constructor
    · rintro rfl
      exact ⟨p, done, rfl, rfl, rfl⟩
    · rintro ⟨_, _, rfl, rfl, rfl⟩
      rfl
  | cons q qs ih =>
    rw [List.foldlM_cons, absorb_cons]
    by_cases hq : Joins p q
    · have hjoin : joining p (q :: qs) = q :: joining p qs := by simp [joining, hq]
      have hrest : others p (q :: qs) = others p qs := by simp [others, hq]
      rw [if_pos hq, hjoin, hrest, List.foldlM_cons]
      simp only [bind_eq_ok_iff, pure_eq_ok_iff]
      constructor
      · rintro ⟨_, ⟨r, hr, rfl⟩, hout⟩
        obtain ⟨p', done', hp', hdone', rfl⟩ := ih.mp hout
        have hid := id_of_mergeInto hr
        rw [joining_congr hid] at hp'
        rw [others_congr hid] at hdone'
        exact ⟨p', done', ⟨r, hr, hp'⟩, hdone', rfl⟩
      · rintro ⟨p', done', ⟨r, hr, hp'⟩, hdone', rfl⟩
        have hid := id_of_mergeInto hr
        rw [← joining_congr hid] at hp'
        rw [← others_congr hid] at hdone'
        exact ⟨_, ⟨r, hr, rfl⟩, ih.mpr ⟨p', done', hp', hdone', rfl⟩⟩
    · have hjoin : joining p (q :: qs) = joining p qs := by simp [joining, hq]
      have hrest : others p (q :: qs) = q :: others p qs := by simp [others, hq]
      rw [if_neg hq, hjoin, hrest, List.foldlM_cons]
      simp only [bind_eq_ok_iff, pure_eq_ok_iff]
      constructor
      · rintro ⟨_, ⟨next, hnext, rfl⟩, hout⟩
        obtain ⟨p', done', hp', hdone', rfl⟩ := ih.mp hout
        exact ⟨p', done', hp', ⟨next, hnext, hdone'⟩, rfl⟩
      · rintro ⟨p', done', hp', ⟨next, hnext, hdone'⟩, rfl⟩
        exact ⟨_, ⟨next, hnext, rfl⟩, ih.mpr ⟨p', done', hp', hdone', rfl⟩⟩

/-- A list is consistent when those that join its first policy can be merged with it and among
    each other, and the others are consistent. -/
theorem consistent_cons_iff (p : AccessPolicy.Policy) (qs : List AccessPolicy.Policy) :
    Consistent (p :: qs) ↔
      (p :: joining p qs).Pairwise Compatible ∧ Consistent (others p qs) := by
  have hcross : ∀ q r, decide (Joins p q) ≠ decide (Joins p r) → Joins q r → Compatible q r := by
    intro q r hne hqr
    by_cases hq : Joins p q
    · exact absurd ((joins_of_joins hq).mp hqr) (by simpa [hq] using hne)
    · exact absurd hqr (not_joins_of_not_joins hq (by simpa [hq] using hne))
  unfold Consistent
  rw [List.pairwise_cons, List.pairwise_cons, pairwise_iff_filter hcross]
  have hhead : (∀ q ∈ qs, Joins p q → Compatible p q) ↔ ∀ q ∈ joining p qs, Compatible p q := by
    simp [joining]
  have htail : (qs.filter fun q => Joins p q).Pairwise (fun q r => Joins q r → Compatible q r) ↔
      (joining p qs).Pairwise Compatible := by
    apply List.Pairwise.iff_of_mem
    intro q r hq hr
    have hq : Joins p q := by simpa using (List.mem_filter.mp hq).2
    have hr : Joins p r := by simpa using (List.mem_filter.mp hr).2
    simp [(joins_of_joins hq).mpr hr]
  rw [hhead, htail, and_assoc]
  simp [others]

/-- Taking up policies one by one succeeds for a consistent list, and gives what is gathered of
    it. -/
theorem foldlM_absorb_eq_ok_iff {qs out : List AccessPolicy.Policy} :
    qs.foldlM (fun done q => absorb q done) [] = .ok out ↔ Consistent qs ∧ out = gather qs := by
  induction qs using gather.induct generalizing out with
  | case1 =>
    rw [List.foldlM_nil, pure_eq_ok_iff, gather_nil]
    simp [Consistent, eq_comm]
  | case2 p rest ih =>
    have hfirst : absorb p [] = .ok [p] := rfl
    rw [List.foldlM_cons, hfirst, consistent_cons_iff, gather_cons]
    change rest.foldlM (fun done q => absorb q done) [p] = .ok out ↔ _
    rw [foldlM_absorb_cons_eq_ok_iff]
    simp only [foldlM_mergeInto_eq_ok_iff, ih]
    constructor
    · rintro ⟨_, _, ⟨hjoin, rfl⟩, ⟨hothers, rfl⟩, rfl⟩
      exact ⟨⟨hjoin, hothers⟩, rfl⟩
    · rintro ⟨⟨hjoin, hothers⟩, rfl⟩
      exact ⟨_, _, ⟨hjoin, rfl⟩, ⟨hothers, rfl⟩, rfl⟩

/-- The backward direction succeeds when all Cedar policies can be read and those read with one
    identifier can be merged, and gives what is gathered of them. -/
theorem Config.merge_eq_ok_iff {c : Config} {qs : List Policy} {ps : PolicySet} :
    c.merge qs = .ok ps ↔
      ∃ rs, qs.mapM c.policyOf = .ok rs ∧ Consistent rs ∧ ps = gather rs := by
  have hstep : c.merge qs =
      qs.foldlM (fun done q => c.policyOf q >>= fun r => absorb r done) [] := rfl
  rw [hstep, foldlM_bind_eq_ok_iff (g := fun done r => absorb r done)]
  simp only [foldlM_absorb_eq_ok_iff]

/-! ## What a gathered policy holds -/

/-- Two policies of a list come together in one: they are the same, or one joins the other. -/
def Together (p q : AccessPolicy.Policy) : Prop := p = q ∨ Joins p q

/-- A policy collects those of a list that come together with `r`. -/
structure Collects (qs : List AccessPolicy.Policy) (r p : AccessPolicy.Policy) : Prop
    extends Agree p r where
  id : p.id = r.id
  mem_members : ∀ m, m ∈ p.subject.members ↔ ∃ q ∈ qs, Together r q ∧ m ∈ q.subject.members
  mem_actions : ∀ a, a ∈ p.actions ↔ ∃ q ∈ qs, Together r q ∧ a ∈ q.actions

theorem Agree.refl (p : AccessPolicy.Policy) : Agree p p := ⟨rfl, rfl, rfl, rfl, rfl⟩

theorem Agree.symm {p q : AccessPolicy.Policy} (h : Agree p q) : Agree q p :=
  ⟨h.info.symm, h.type.symm, h.providerId.symm, h.object.symm, h.condition.symm⟩

/-- In a consistent list the policies that come together agree. -/
theorem agree_of_together {ps : List AccessPolicy.Policy} (h : Consistent ps)
    {p q : AccessPolicy.Policy} (hp : p ∈ ps) (hq : q ∈ ps) (htogether : Together p q) :
    Agree p q := by
  rcases htogether with rfl | hjoin
  · exact Agree.refl p
  · have hsymm : Std.Symm fun p q => Joins p q → Agree p q :=
      ⟨fun p q h' hjoin => (h' (joins_symm hjoin)).symm⟩
    have hagree : ps.Pairwise fun p q => Joins p q → Agree p q :=
      h.imp fun h' hjoin => (h' hjoin).toAgree
    exact hagree.forall_of_forall (fun p _ _ => Agree.refl p) hp hq hjoin

theorem together_symm {p q : AccessPolicy.Policy} (h : Together p q) : Together q p := by
  rcases h with rfl | hjoin
  · exact Or.inl rfl
  · exact Or.inr (joins_symm hjoin)

theorem together_trans {p q r : AccessPolicy.Policy} (hpq : Together p q) (hqr : Together q r) :
    Together p r := by
  rcases hpq with rfl | hpq
  · exact hqr
  · rcases hqr with rfl | hqr
    · exact Or.inr hpq
    · exact Or.inr ((joins_of_joins hpq).mp hqr)

theorem mem_addAll_joining {β : Type} [DecidableEq β] (f : AccessPolicy.Policy → List β)
    (p : AccessPolicy.Policy) (rest : List AccessPolicy.Policy) (b : β) :
    b ∈ addAll (f p) ((joining p rest).flatMap f) ↔
      ∃ q ∈ p :: rest, Together p q ∧ b ∈ f q := by
  simp only [mem_addAll, List.mem_flatMap, joining, List.mem_filter, decide_eq_true_eq]
  constructor
  · rintro (hb | ⟨q, ⟨hq, hjoin⟩, hb⟩)
    · exact ⟨p, List.mem_cons_self, Or.inl rfl, hb⟩
    · exact ⟨q, List.mem_cons_of_mem p hq, Or.inr hjoin, hb⟩
  · rintro ⟨q, hq, rfl | hjoin, hb⟩
    · exact Or.inl hb
    · rcases List.mem_cons.mp hq with rfl | hq
      · exact Or.inl hb
      · exact Or.inr ⟨q, ⟨hq, hjoin⟩, hb⟩

theorem collects_head (p : AccessPolicy.Policy) (rest : List AccessPolicy.Policy) :
    Collects (p :: rest) p ((joining p rest).foldl union p) := by
  rw [foldl_union]
  exact ⟨⟨rfl, rfl, rfl, rfl, rfl⟩, rfl,
    mem_addAll_joining (fun q => q.subject.members) p rest,
    mem_addAll_joining AccessPolicy.Policy.actions p rest⟩

/-- What comes together with a policy that does not join `p` does not join `p` either. -/
theorem mem_others_of_together {p r q : AccessPolicy.Policy} {rest : List AccessPolicy.Policy}
    (hr : r ∈ others p rest) (hq : q ∈ p :: rest) (h : Together r q) : q ∈ others p rest := by
  rcases h with rfl | hjoin
  · exact hr
  · have hpr : ¬ Joins p r := by simpa using (List.mem_filter.mp hr).2
    have hpq : ¬ Joins p q := fun hpq => not_joins_of_not_joins hpr hpq hjoin
    rcases List.mem_cons.mp hq with rfl | hq
    · exact absurd (joins_symm hjoin) hpr
    · exact List.mem_filter.mpr ⟨hq, by simpa using hpq⟩

theorem collects_of_others {p r g : AccessPolicy.Policy} {rest : List AccessPolicy.Policy}
    (hr : r ∈ others p rest) (h : Collects (others p rest) r g) : Collects (p :: rest) r g := by
  have hwider : ∀ P : AccessPolicy.Policy → Prop,
      (∃ q ∈ others p rest, Together r q ∧ P q) ↔ ∃ q ∈ p :: rest, Together r q ∧ P q := by
    intro P
    constructor
    · rintro ⟨q, hq, htogether, hP⟩
      exact ⟨q, List.mem_cons_of_mem p (List.mem_filter.mp hq).1, htogether, hP⟩
    · rintro ⟨q, hq, htogether, hP⟩
      exact ⟨q, mem_others_of_together hr hq htogether, htogether, hP⟩
  exact ⟨h.toAgree, h.id, fun m => (h.mem_members m).trans (hwider _),
    fun a => (h.mem_actions a).trans (hwider _)⟩

/-- Every gathered policy collects what comes together with one policy of the list. -/
theorem exists_collects_of_mem_gather {qs : List AccessPolicy.Policy} {g : AccessPolicy.Policy}
    (h : g ∈ gather qs) : ∃ r ∈ qs, Collects qs r g := by
  induction qs using gather.induct with
  | case1 => simp at h
  | case2 p rest ih =>
    rw [gather_cons] at h
    rcases List.mem_cons.mp h with rfl | h
    · exact ⟨p, List.mem_cons_self, collects_head p rest⟩
    · obtain ⟨r, hr, hcollects⟩ := ih h
      exact ⟨r, List.mem_cons_of_mem p (List.mem_filter.mp hr).1, collects_of_others hr hcollects⟩

/-- Every policy of a list comes together with others in some gathered policy. -/
theorem exists_mem_gather {qs : List AccessPolicy.Policy} {q : AccessPolicy.Policy}
    (h : q ∈ qs) : ∃ r ∈ qs, Together r q ∧ ∃ g ∈ gather qs, Collects qs r g := by
  induction qs using gather.induct with
  | case1 => cases h
  | case2 p rest ih =>
    rw [gather_cons]
    by_cases htogether : Together p q
    · exact ⟨p, List.mem_cons_self, htogether, _, List.mem_cons_self, collects_head p rest⟩
    · rw [Together, not_or] at htogether
      have hq : q ∈ rest := (List.mem_cons.mp h).resolve_left fun e => htogether.1 e.symm
      obtain ⟨r, hr, hrq, g, hg, hcollects⟩ :=
        ih (List.mem_filter.mpr ⟨hq, by simpa using htogether.2⟩)
      exact ⟨r, List.mem_cons_of_mem p (List.mem_filter.mp hr).1, hrq, g,
        List.mem_cons_of_mem _ hg, collects_of_others hr hcollects⟩

/-! ## Blocks of policies with one identifier -/

/-- A block of policies that join the first one, with none that does after it, is gathered in one
    policy. -/
theorem gather_block {p : AccessPolicy.Policy} {block rest : List AccessPolicy.Policy}
    (hblock : ∀ q ∈ block, Joins p q) (hrest : ∀ q ∈ rest, ¬ Joins p q) :
    gather (p :: block ++ rest) = block.foldl union p :: gather rest := by
  have hjoining : joining p (block ++ rest) = block := by
    unfold joining
    rw [List.filter_append, List.filter_eq_self.mpr (by simpa using hblock),
      List.filter_eq_nil_iff.mpr (by simpa using hrest), List.append_nil]
  have hothers : others p (block ++ rest) = rest := by
    unfold others
    rw [List.filter_append, List.filter_eq_nil_iff.mpr (by simpa using hblock),
      List.filter_eq_self.mpr (by simpa using hrest), List.nil_append]
  rw [List.cons_append, gather_cons, hjoining, hothers]

end AccessPolicy.Cedar
