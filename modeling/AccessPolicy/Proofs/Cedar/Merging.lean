import AccessPolicy.Proofs.Cedar.Gather
import AccessPolicy.Proofs.Cedar.Reading

/-!
# Cedar policies as a policy set

When Cedar policies can be taken as a policy set, and what this set is. Each one must be readable on
its own, and two with one identifier must say the same but for members and actions, of which none is
granted by one and excluded by the other. Nothing depends on how the identifiers are interleaved.

* `firsts`, `collected`: the first policy under each identifier, and what comes together in it.
* `gather_eq`: what is gathered, in closed form.
* `ambiguity_of_foldlM_absorb`: how taking up policies fails.
* `merge_spec`: when the backward direction succeeds, with which result, and how it fails.
-/

namespace AccessPolicy.Cedar

open Outcome

/-! ## The first under each identifier -/

/-- The policies of a list, without those that join an earlier one. -/
def firsts : List AccessPolicy.Policy → List AccessPolicy.Policy
  | [] => []
  | p :: rest => p :: (firsts rest).filter fun q => ¬ Joins p q

/-- Leaving out all that join a policy leaves the first of all others. -/
theorem firsts_others (p : AccessPolicy.Policy) (qs : List AccessPolicy.Policy) :
    firsts (others p qs) = (firsts qs).filter fun q => ¬ Joins p q := by
  induction qs with
  | nil => rfl
  | cons q qs ih =>
    unfold others at ih ⊢
    by_cases hq : Joins p q
    · have hsame : ∀ r, Joins q r ↔ Joins p r := fun r => joins_of_joins hq
      rw [List.filter_cons_of_neg (by simpa using hq), ih, firsts,
        List.filter_cons_of_neg (by simpa using hq), List.filter_filter]
      simp only [hsame, Bool.and_self]
    · rw [List.filter_cons_of_pos (by simpa using hq), firsts, firsts,
        List.filter_cons_of_pos (by simpa using hq), ih, List.filter_filter, List.filter_filter]
      simp only [Bool.and_comm]

theorem firsts_cons (p : AccessPolicy.Policy) (qs : List AccessPolicy.Policy) :
    firsts (p :: qs) = p :: firsts (others p qs) := by
  rw [firsts_others, firsts]

theorem mem_of_mem_firsts {p : AccessPolicy.Policy} {qs : List AccessPolicy.Policy}
    (h : p ∈ firsts qs) : p ∈ qs := by
  induction qs with
  | nil => exact h
  | cons q qs ih =>
    rw [firsts, List.mem_cons] at h
    rcases h with rfl | h
    · exact List.mem_cons_self
    · exact List.mem_cons_of_mem q (ih (List.mem_filter.mp h).1)

theorem not_joins_of_id_eq_none {p q : AccessPolicy.Policy} (h : p.id = none) : ¬ Joins p q := by
  rintro ⟨hsome, hid⟩
  rw [← hid, h] at hsome
  cases hsome

/-- There is one for each identifier, in the order in which the identifiers first come. -/
theorem filterMap_id_firsts (qs : List AccessPolicy.Policy) :
    (firsts qs).filterMap AccessPolicy.Policy.id =
      (qs.filterMap AccessPolicy.Policy.id).eraseDups := by
  induction qs with
  | nil => rfl
  | cons p qs ih =>
    rw [firsts]
    cases hp : p.id with
    | none =>
      have hall : ((firsts qs).filter fun q => ¬ Joins p q) = firsts qs :=
        List.filter_eq_self.mpr fun q _ => by simpa using not_joins_of_id_eq_none hp
      rw [hall, List.filterMap_cons_none hp, List.filterMap_cons_none hp, ih]
    | some id =>
      rw [List.filterMap_cons_some hp, List.filterMap_cons_some hp, List.eraseDups_cons,
        ← filter_eraseDups, ← ih, List.filterMap_filter, List.filter_filterMap]
      congr 1
      apply List.filterMap_congr
      intro q _
      cases hq : q.id with
      | none => simp
      | some id' =>
        have hjoins : Joins p q ↔ id' = id := by simp [Joins, hp, hq, eq_comm]
        by_cases h : id' = id <;> simp [hjoins, Option.filter, h]

/-- All without an identifier are among them. -/
theorem filter_id_firsts (qs : List AccessPolicy.Policy) :
    ((firsts qs).filter fun q => q.id = none) = qs.filter fun q => q.id = none := by
  induction qs with
  | nil => rfl
  | cons p qs ih =>
    have hrest : (((firsts qs).filter fun q => ¬ Joins p q).filter fun q => q.id = none) =
        qs.filter fun q => q.id = none := by
      rw [← ih, List.filter_filter]
      apply List.filter_congr
      intro q _
      cases hq : q.id <;> simp [Joins, hq]
    rw [firsts, List.filter_cons, List.filter_cons, hrest]

/-! ## What comes together -/

/-- The policies of a list that come together with one of them: those with its identifier, or it
    alone if it has none. -/
def companions (rs : List AccessPolicy.Policy) (r : AccessPolicy.Policy) :
    List AccessPolicy.Policy :=
  if r.id.isSome then rs.filter fun q => q.id = r.id else [r]

/-- A policy with the members and the actions of all that come together with it: the members each
    once, and its own actions before those that others bring. -/
def collected (rs : List AccessPolicy.Policy) (r : AccessPolicy.Policy) : AccessPolicy.Policy :=
  { r with
    subject := { r.subject with
      members := ((companions rs r).flatMap fun q => q.subject.members).eraseDups }
    actions := r.actions ++
      (((companions rs r).flatMap AccessPolicy.Policy.actions).filter
        fun a => a ∉ r.actions).eraseDups }

theorem companions_cons_self (p : AccessPolicy.Policy) (rest : List AccessPolicy.Policy) :
    companions (p :: rest) p = p :: joining p rest := by
  unfold companions joining
  cases hp : p.id with
  | none =>
    have hnone : (rest.filter fun q => Joins p q) = [] :=
      List.filter_eq_nil_iff.mpr fun q _ => by simpa using not_joins_of_id_eq_none hp
    rw [hnone]
    rfl
  | some id =>
    have hsame : (rest.filter fun q => q.id = some id) = rest.filter fun q => Joins p q := by
      apply List.filter_congr
      intro q _
      cases hq : q.id <;> simp [Joins, hp, hq, eq_comm]
    rw [Option.isSome_some, if_pos rfl, List.filter_cons_of_pos (by simpa using hp), hsame]

/-- What does not join the first policy comes together without it. -/
theorem companions_cons_of_mem_others {p r : AccessPolicy.Policy}
    {rest : List AccessPolicy.Policy} (h : r ∈ others p rest) :
    companions (p :: rest) r = companions (others p rest) r := by
  have hr : ¬ Joins p r := by simpa using (List.mem_filter.mp h).2
  unfold companions
  split_ifs with hid
  · have hp : p.id ≠ r.id := fun e => hr ⟨hid, e⟩
    rw [List.filter_cons_of_neg (by simpa using hp)]
    unfold others
    rw [List.filter_filter]
    apply List.filter_congr
    intro q _
    by_cases hq : q.id = r.id
    · have hjoins : ¬ Joins p q := fun hjoins => hp (hjoins.2.trans hq)
      simp [hq, hjoins]
    · simp [hq]
  · rfl

/-- What is gathered around the first policy is what comes together with it. -/
theorem foldl_union_joining {p : AccessPolicy.Policy} (hmembers : p.subject.members.Nodup)
    (rest : List AccessPolicy.Policy) :
    (joining p rest).foldl union p = collected (p :: rest) p := by
  have hown : (p.actions.filter fun a => a ∉ p.actions) = [] :=
    List.filter_eq_nil_iff.mpr fun a ha => by simpa using ha
  unfold collected
  rw [foldl_union, companions_cons_self, addAll_eq_eraseDups hmembers, addAll_eq,
    List.flatMap_cons, List.flatMap_cons, List.filter_append, hown, List.nil_append]

/-- What is gathered of a list is what comes together with the first policy under each identifier,
    and each policy without one. -/
theorem gather_eq {rs : List AccessPolicy.Policy} (h : ∀ r ∈ rs, r.subject.members.Nodup) :
    gather rs = (firsts rs).map (collected rs) := by
  induction rs using gather.induct with
  | case1 => simp [firsts]
  | case2 p rest ih =>
    have hothers : ∀ r ∈ others p rest, r.subject.members.Nodup :=
      fun r hr => h r (List.mem_cons_of_mem p (List.mem_filter.mp hr).1)
    rw [gather_cons, firsts_cons, List.map_cons, ih hothers,
      foldl_union_joining (h p List.mem_cons_self)]
    congr 1
    apply List.map_congr_left
    intro r hr
    unfold collected
    rw [companions_cons_of_mem_others (mem_of_mem_firsts hr)]

/-! ## Policies that can be merged pairwise -/

theorem Compatible.symm {p q : AccessPolicy.Policy} (h : Compatible p q) : Compatible q p :=
  ⟨h.toAgree.symm, fun a ha b hb hid => (h.exclude b hb a ha hid.symm).symm⟩

/-- A list is consistent if any two of its policies with one identifier can be merged, in any
    order. -/
theorem consistent_iff {rs : List AccessPolicy.Policy} (hself : ∀ r ∈ rs, Compatible r r) :
    Consistent rs ↔ ∀ r ∈ rs, ∀ r' ∈ rs, Joins r r' → Compatible r r' := by
  unfold Consistent
  constructor
  · intro h r hr r' hr'
    have hsymm : Std.Symm fun p q => Joins p q → Compatible p q :=
      ⟨fun p q hpq hjoins => (hpq (joins_symm hjoins)).symm⟩
    exact h.forall_of_forall (fun p hp _ => hself p hp) hr hr'
  · exact List.pairwise_of_forall_mem_list

/-- No gathered policy grants an action and excludes it, too. -/
theorem exclude_of_mem_gather {rs : List AccessPolicy.Policy} (hself : ∀ r ∈ rs, Compatible r r)
    (h : Consistent rs) {p : AccessPolicy.Policy} (hp : p ∈ gather rs) {a b : Action}
    (ha : a ∈ p.actions) (hb : b ∈ p.actions) (hid : a.identifier = b.identifier) :
    a.exclude = b.exclude := by
  obtain ⟨r, _, hcollects⟩ := exists_collects_of_mem_gather hp
  obtain ⟨r₁, hr₁, ht₁, ha⟩ := (hcollects.mem_actions a).mp ha
  obtain ⟨r₂, hr₂, ht₂, hb⟩ := (hcollects.mem_actions b).mp hb
  have hcompatible : Compatible r₁ r₂ := by
    rcases together_trans (together_symm ht₁) ht₂ with rfl | hjoins
    · exact hself r₁ hr₁
    · exact (consistent_iff hself).mp h r₁ hr₁ r₂ hr₂ hjoins
  exact hcompatible.exclude a ha b hb hid

/-- What a consistent list of policies, each with a member of its own, makes as a policy set. -/
structure Gathered (rs ps : List AccessPolicy.Policy) : Prop where
  /-- Every policy stands in the place of the first under its identifier. -/
  eq_collected : ps = (firsts rs).map (collected rs)
  ids_eq : ps.filterMap AccessPolicy.Policy.id = (rs.filterMap AccessPolicy.Policy.id).eraseDups
  length_eq : ps.length = (rs.filterMap AccessPolicy.Policy.id).eraseDups.length +
    rs.countP fun r => r.id = none
  nodup_ids : (ps.filterMap AccessPolicy.Policy.id).Nodup
  exclude : ∀ p ∈ ps, ∀ a ∈ p.actions, ∀ b ∈ p.actions,
    a.identifier = b.identifier → a.exclude = b.exclude

/-- A list is as long as its keys and its elements without a key together. -/
theorem length_eq_filterMap_add_countP {α κ : Type} [DecidableEq κ] (key : α → Option κ)
    (xs : List α) :
    xs.length = (xs.filterMap key).length + xs.countP fun x => key x = none := by
  induction xs with
  | nil => rfl
  | cons x xs ih =>
    rw [List.length_cons, List.filterMap_cons, List.countP_cons]
    cases hx : key x with
    | none =>
      simp only [decide_true, if_true]
      omega
    | some k =>
      simp only [List.length_cons, reduceCtorEq, decide_false, if_false, Bool.false_eq_true]
      omega

theorem gathered_gather {rs : List AccessPolicy.Policy}
    (hmembers : ∀ r ∈ rs, r.subject.members.Nodup) (hself : ∀ r ∈ rs, Compatible r r)
    (h : Consistent rs) : Gathered rs (gather rs) := by
  have hids : (gather rs).filterMap AccessPolicy.Policy.id =
      (rs.filterMap AccessPolicy.Policy.id).eraseDups := by
    rw [gather_eq hmembers, List.filterMap_map, ← filterMap_id_firsts]
    rfl
  have hwithout : ((gather rs).countP fun p => p.id = none) = rs.countP fun r => r.id = none := by
    rw [gather_eq hmembers, List.countP_map, List.countP_eq_length_filter,
      List.countP_eq_length_filter, ← filter_id_firsts]
    rfl
  refine ⟨gather_eq hmembers, hids, ?_, ?_, ?_⟩
  · rw [length_eq_filterMap_add_countP AccessPolicy.Policy.id (gather rs), hids, hwithout]
  · rw [hids]
    exact nodup_eraseDups _
  · exact fun p hp a ha b hb => exclude_of_mem_gather hself h hp ha hb

/-! ## How taking up fails -/

/-- Two policies with one identifier disagree. -/
theorem ambiguity_of_absorb {q : AccessPolicy.Policy} {done : List AccessPolicy.Policy}
    {e : Error} (h : absorb q done = .error e) :
    ∃ id what, q.id = some id ∧
      e = .ambiguity ("policies with id '" ++ id ++ "' disagree on " ++ what) := by
  induction done with
  | nil => cases h
  | cons p rest ih =>
    rw [absorb_cons] at h
    split_ifs at h with hjoins
    · rcases bind_eq_error_iff.mp h with hmerge | ⟨r, _, h⟩
      · obtain ⟨id, hid⟩ := Option.isSome_iff_exists.mp hjoins.1
        unfold mergeInto at hmerge
        split at hmerge
        · rename_i what _
          rw [hjoins.2, hid] at hmerge
          exact ⟨id, what, hid, (Except.error.inj hmerge).symm⟩
        · cases hmerge
      · cases h
    · rcases bind_eq_error_iff.mp h with hrest | ⟨r, _, h⟩
      · exact ih hrest
      · cases h

namespace Config

variable {c : Config}

/-! ## Cedar policies that can be read -/

section Read

variable {q : Policy} {r : AccessPolicy.Policy}

theorem id_of_policyOf (h : c.policyOf q = .ok r) : r.id = lastValue? q.annotations "id" := by
  obtain ⟨n, member, ids, asset, hn, _, _, _, rfl⟩ := policyOf_eq_ok_iff.mp h
  obtain ⟨-, rfl⟩ := Notes.ofAnnotations_eq_ok_iff.mp hn
  rfl

theorem nodup_members_of_policyOf (h : c.policyOf q = .ok r) : r.subject.members.Nodup := by
  obtain ⟨n, member, ids, asset, _, _, _, _, rfl⟩ := policyOf_eq_ok_iff.mp h
  exact List.nodup_singleton member

/-- The actions of one Cedar policy all carry one mark, so it can be merged with itself. -/
theorem compatible_self_of_policyOf (h : c.policyOf q = .ok r) : Compatible r r := by
  obtain ⟨n, member, ids, asset, _, _, _, _, rfl⟩ := policyOf_eq_ok_iff.mp h
  refine ⟨Agree.refl _, fun a ha b hb _ => ?_⟩
  obtain ⟨_, _, rfl⟩ := List.mem_map.mp ha
  obtain ⟨_, _, rfl⟩ := List.mem_map.mp hb
  rfl

end Read

/-- Where every Cedar policy can be read, only a disagreement can make a run fail. -/
theorem ambiguity_of_foldlM_step {qs : List Policy} {done : List AccessPolicy.Policy} {e : Error}
    (hread : ∀ q ∈ qs, ∃ r, c.policyOf q = .ok r) (h : qs.foldlM c.step done = .error e) :
    ∃ q ∈ qs, ∃ id what, lastValue? q.annotations "id" = some id ∧
      e = .ambiguity ("policies with id '" ++ id ++ "' disagree on " ++ what) := by
  induction qs generalizing done with
  | nil => cases h
  | cons q qs ih =>
    obtain ⟨⟨r, hr⟩, hread⟩ := List.forall_mem_cons.mp hread
    have hstep : c.step done q = absorb r done := by
      unfold step
      rw [hr]
      rfl
    rw [List.foldlM_cons, bind_eq_error_iff, hstep] at h
    rcases h with habsorb | ⟨next, _, hnext⟩
    · obtain ⟨id, what, hid, he⟩ := ambiguity_of_absorb habsorb
      rw [id_of_policyOf hr] at hid
      exact ⟨q, List.mem_cons_self, id, what, hid, he⟩
    · obtain ⟨q', hq', hfails⟩ := ih hread hnext
      exact ⟨q', List.mem_cons_of_mem q hq', hfails⟩

/-! ## The backward direction -/

/-- What two Cedar policies that share an identifier read as can be merged. -/
def Agreeing (c : Config) (qs : List Policy) : Prop :=
  ∀ q ∈ qs, ∀ q' ∈ qs, ∀ id, lastValue? q.annotations "id" = some id →
    lastValue? q'.annotations "id" = some id →
    ∀ r r', c.policyOf q = .ok r → c.policyOf q' = .ok r' → Compatible r r'

theorem consistent_iff_agreeing {qs : List Policy} {rs : List AccessPolicy.Policy}
    (h : List.Forall₂ (fun q r => c.policyOf q = .ok r) qs rs) :
    Consistent rs ↔ c.Agreeing qs := by
  have hself : ∀ r ∈ rs, Compatible r r := by
    intro r hr
    obtain ⟨q, _, hq⟩ := exists_of_mem_right h hr
    exact compatible_self_of_policyOf hq
  rw [consistent_iff hself]
  constructor
  · intro hrs q hq q' hq' id hid hid' r r' hread hread'
    obtain ⟨r₁, hr₁, h₁⟩ := exists_of_mem_left h hq
    obtain ⟨r₂, hr₂, h₂⟩ := exists_of_mem_left h hq'
    obtain rfl : r₁ = r := Except.ok.inj (h₁.symm.trans hread)
    obtain rfl : r₂ = r' := Except.ok.inj (h₂.symm.trans hread')
    refine hrs r₁ hr₁ r₂ hr₂ ⟨?_, ?_⟩
    · rw [id_of_policyOf h₂, hid']
      rfl
    · rw [id_of_policyOf h₁, id_of_policyOf h₂, hid, hid']
  · rintro hqs r hr r' hr' ⟨hsome, hsame⟩
    obtain ⟨q, hq, hread⟩ := exists_of_mem_right h hr
    obtain ⟨q', hq', hread'⟩ := exists_of_mem_right h hr'
    obtain ⟨id, hid⟩ := Option.isSome_iff_exists.mp hsome
    have hq_id : lastValue? q.annotations "id" = some id := by
      rw [← id_of_policyOf hread, hsame, hid]
    have hq'_id : lastValue? q'.annotations "id" = some id := by
      rw [← id_of_policyOf hread', hid]
    exact hqs q hq q' hq' id hq_id hq'_id r r' hread hread'

theorem exists_merge_eq_ok_iff {qs : List Policy} :
    (∃ ps, c.merge qs = .ok ps) ↔ (∀ q ∈ qs, ∃ r, c.policyOf q = .ok r) ∧ c.Agreeing qs := by
  constructor
  · rintro ⟨ps, h⟩
    obtain ⟨rs, hrs, hconsistent, -⟩ := merge_eq_ok_iff.mp h
    rw [mapM_eq_ok_iff] at hrs
    refine ⟨fun q hq => ?_, (consistent_iff_agreeing hrs).mp hconsistent⟩
    obtain ⟨r, _, hr⟩ := exists_of_mem_left hrs hq
    exact ⟨r, hr⟩
  · rintro ⟨hread, hagreeing⟩
    obtain ⟨rs, hrs⟩ := exists_forall₂ hread
    exact ⟨gather rs, merge_eq_ok_iff.mpr
      ⟨rs, mapM_eq_ok_iff.mpr hrs, (consistent_iff_agreeing hrs).mpr hagreeing, rfl⟩⟩

/-- **Merging.** Cedar policies make a policy set exactly if each can be read on its own and those
    that share an identifier agree. The set then has one policy for each identifier and one for
    each Cedar policy without, in the order in which they first come, with all members and actions
    of those that share it, and none of its policies grants an action and excludes it, too. If each
    can be read and some disagree, the failure is an ambiguity under their identifier. -/
theorem merge_spec (c : Config) (qs : List Policy) :
    ((∃ ps, c.merge qs = .ok ps) ↔ (∀ q ∈ qs, ∃ r, c.policyOf q = .ok r) ∧ c.Agreeing qs) ∧
      (∀ ps, c.merge qs = .ok ps →
        ∃ rs, List.Forall₂ (fun q r => c.policyOf q = .ok r) qs rs ∧ Gathered rs ps) ∧
      ((∀ q ∈ qs, ∃ r, c.policyOf q = .ok r) → ¬ c.Agreeing qs →
        ∃ q ∈ qs, ∃ id what, lastValue? q.annotations "id" = some id ∧
          c.merge qs =
            .error (.ambiguity ("policies with id '" ++ id ++ "' disagree on " ++ what))) := by
  refine ⟨exists_merge_eq_ok_iff, ?_, ?_⟩
  · intro ps h
    obtain ⟨rs, hrs, hconsistent, rfl⟩ := merge_eq_ok_iff.mp h
    rw [mapM_eq_ok_iff] at hrs
    have hread : ∀ r ∈ rs, ∃ q, c.policyOf q = .ok r := by
      intro r hr
      obtain ⟨q, _, hq⟩ := exists_of_mem_right hrs hr
      exact ⟨q, hq⟩
    refine ⟨rs, hrs, gathered_gather (fun r hr => ?_) (fun r hr => ?_) hconsistent⟩
    · exact (hread r hr).elim fun _ h => nodup_members_of_policyOf h
    · exact (hread r hr).elim fun _ h => compatible_self_of_policyOf h
  · intro hread hdisagree
    cases h : c.merge qs with
    | ok ps => exact absurd (exists_merge_eq_ok_iff.mp ⟨ps, h⟩).2 hdisagree
    | error e =>
      obtain ⟨q, hq, id, what, hid, rfl⟩ := ambiguity_of_foldlM_step hread h
      exact ⟨q, hq, id, what, hid, rfl⟩

/-- Two identifiers and two Cedar policies without one, interleaved. -/
def interleaved : List Policy :=
  [{ effect := .permit, annotations := [("id", "a")], principal := .eq ⟨"User", "alice"⟩
     action := .eq ⟨"Action", "view"⟩ },
   { effect := .permit, principal := .all, action := .eq ⟨"Action", "list"⟩ },
   { effect := .forbid, annotations := [("id", "b")], principal := .within ⟨"Group", "staff"⟩
     action := .eq ⟨"Action", "view"⟩ },
   { effect := .permit, annotations := [("id", "a")], principal := .eq ⟨"User", "bob"⟩
     action := .withinAny [⟨"Action", "edit"⟩, ⟨"Action", "view"⟩] },
   { effect := .permit, principal := .all, action := .eq ⟨"Action", "list"⟩ }]

/-- A grant and a prohibition of one action that share an identifier. -/
def conflicting : List Policy :=
  [{ effect := .permit, annotations := [("id", "a")], action := .eq ⟨"Action", "view"⟩ },
   { effect := .forbid, annotations := [("id", "a")], action := .eq ⟨"Action", "view"⟩ }]

theorem merge_spec_interleaved :
    (∃ ps, ({} : Config).merge interleaved = .ok ps ∧
      ps.filterMap AccessPolicy.Policy.id = ["a", "b"] ∧ ps.length = 4 ∧
      ps.head? = some
        { id := some "a"
          subject := { members := ["user:alice", "user:bob"] }
          actions := [⟨"view", "view", false⟩, ⟨"edit", "edit", false⟩] }) ∧
    ∃ what, ({} : Config).merge conflicting =
      .error (.ambiguity ("policies with id '" ++ "a" ++ "' disagree on " ++ what)) := by
  constructor
  · obtain ⟨ps, hps⟩ : ∃ ps, ({} : Config).merge interleaved = .ok ps := ⟨_, rfl⟩
    obtain ⟨rs, hrs, hgathered⟩ := (merge_spec {} interleaved).2.1 ps hps
    obtain rfl : rs = _ := Except.ok.inj
      ((mapM_eq_ok_iff.mpr hrs).symm.trans (rfl : interleaved.mapM ({} : Config).policyOf = .ok _))
    refine ⟨ps, hps, ?_, ?_, ?_⟩
    · rw [hgathered.ids_eq]
      decide
    · rw [hgathered.length_eq]
      decide
    · rw [hgathered.eq_collected]
      decide
  · have hread : ∀ q ∈ conflicting, ∃ r, ({} : Config).policyOf q = .ok r := by
      intro q hq
      simp only [conflicting, List.mem_cons, List.not_mem_nil, or_false] at hq
      obtain rfl | rfl := hq
      · exact ⟨_, rfl⟩
      · exact ⟨_, rfl⟩
    have hdisagree : ¬ ({} : Config).Agreeing conflicting := by
      intro h
      have hcompatible := h conflicting[0] (by decide) conflicting[1] (by decide) "a"
        (by decide) (by decide) _ _ rfl rfl
      have hexclude := hcompatible.exclude ⟨"view", "view", false⟩ (by decide)
        ⟨"view", "view", true⟩ (by decide) rfl
      cases hexclude
    obtain ⟨q, hq, id, what, hid, hmerge⟩ := (merge_spec {} conflicting).2.2 hread hdisagree
    have ha : id = "a" := by
      simp only [conflicting, List.mem_cons, List.not_mem_nil, or_false] at hq
      obtain rfl | rfl := hq
      · exact (Option.some.inj hid).symm
      · exact (Option.some.inj hid).symm
    rw [ha] at hmerge
    exact ⟨what, hmerge⟩

end Config

end AccessPolicy.Cedar
