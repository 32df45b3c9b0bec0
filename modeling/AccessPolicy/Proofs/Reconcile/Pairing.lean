import AccessPolicy.Proofs.Reconcile.Canonical

/-!
# Pairing policies

A comparison takes the policies of the first set in order. Each takes a partner from those policies
of the second set that are still available, if one of them is the same policy; a partner that does
not differ at all goes first.

* `partner?_eq_some`, `partner?_eq_none_iff`: what is known of a partner.
* `changeOf_eq_equal_iff`: a policy counts as equal exactly if an available one does not differ
  from it.
* `mem_available_iff`: what is available after some policies have taken partners.
* `compare_eq`: a comparison in closed form.
-/

namespace AccessPolicy

/-! ## What became of a policy -/

namespace Policy

variable {p q : Policy}

theorem changeTo_of_differences_eq_nil (h : p.differences q = []) : p.changeTo q = .equal := by
  unfold changeTo equivalent
  rw [h, List.isEmpty_nil, if_pos rfl]

theorem changeTo_of_differences_ne_nil (h : p.differences q ≠ []) :
    p.changeTo q = .changed (p.differences q) := by
  unfold changeTo equivalent
  rw [if_neg (by simpa using h)]

theorem changeTo_eq_equal_iff : p.changeTo q = .equal ↔ p.equivalent q := by
  unfold changeTo
  split_ifs with h <;> simp [h]

theorem changeTo_ne_removed (p q : Policy) : p.changeTo q ≠ .removed := by
  unfold changeTo
  split_ifs <;> simp

theorem changeTo_ne_added (p q : Policy) : p.changeTo q ≠ .added := by
  unfold changeTo
  split_ifs <;> simp

end Policy

namespace Placed

/-! ## One policy -/

section Step

variable {rest : Placed} {p : Policy} {q : Nat × Policy}

/-- Those of the policies available that are the same policy. -/
def candidates (rest : Placed) (p : Policy) : Placed := rest.filter fun q => p.isSame q.2

theorem mem_candidates_iff : q ∈ rest.candidates p ↔ q ∈ rest ∧ p.isSame q.2 := List.mem_filter

theorem partner?_eq (rest : Placed) (p : Policy) :
    rest.partner? p =
      ((rest.candidates p).find? fun q => p.equivalent q.2).or (rest.candidates p).head? := by
  unfold partner? candidates
  dsimp only
  cases (rest.filter fun q => p.isSame q.2).find? fun q => p.equivalent q.2 <;> rfl

theorem partner?_eq_none_iff : rest.partner? p = none ↔ ∀ q ∈ rest, ¬ p.isSame q.2 := by
  rw [partner?_eq, Option.or_eq_none_iff, List.head?_eq_none_iff]
  constructor
  · rintro ⟨-, hnil⟩
    exact List.filter_eq_nil_iff.mp hnil
  · intro h
    have hnil : rest.candidates p = [] := List.filter_eq_nil_iff.mpr h
    rw [hnil]
    exact ⟨rfl, rfl⟩

/-- A partner is available and is the same policy, and it does not differ at all if anything
    available does not. -/
theorem partner?_eq_some (h : rest.partner? p = some q) :
    q ∈ rest ∧ p.isSame q.2 ∧ ((∃ r ∈ rest, p.equivalent r.2) → p.equivalent q.2) := by
  rw [partner?_eq, Option.or_eq_some_iff] at h
  rcases h with hfind | ⟨hfind, hhead⟩
  · obtain ⟨hmem, hsame⟩ := mem_candidates_iff.mp (List.mem_of_find?_eq_some hfind)
    have hequivalent := List.find?_some hfind
    exact ⟨hmem, hsame, fun _ => hequivalent⟩
  · obtain ⟨hmem, hsame⟩ := mem_candidates_iff.mp (List.mem_of_mem_head? hhead)
    refine ⟨hmem, hsame, ?_⟩
    rintro ⟨r, hr, hequivalent⟩
    have hcandidate := mem_candidates_iff.mpr ⟨hr, Policy.isSame_of_equivalent hequivalent⟩
    exact absurd hequivalent (List.find?_eq_none.mp hfind r hcandidate)

/-- What became of a policy for which the policies of `rest` are available. -/
def changeOf (rest : Placed) (p : Policy) : Change :=
  match rest.partner? p with
  | some q => p.changeTo q.2
  | none => .removed

/-- What is available once a policy has taken its partner. -/
def after (rest : Placed) (p : Policy) : Placed :=
  match rest.partner? p with
  | some q => rest.without q.1
  | none => rest

theorem mem_after_iff :
    q ∈ rest.after p ↔ q ∈ rest ∧ ∀ r, rest.partner? p = some r → r.1 ≠ q.1 := by
  unfold after
  cases rest.partner? p with
  | some r =>
    simp only [without, List.mem_filter, decide_eq_true_eq, Option.some.injEq, forall_eq']
    exact and_congr_right fun _ => ne_comm
  | none => simp

theorem changeOf_ne_added (rest : Placed) (p : Policy) : rest.changeOf p ≠ .added := by
  unfold changeOf
  cases rest.partner? p with
  | some q => exact Policy.changeTo_ne_added p q.2
  | none => simp

theorem changeOf_eq_removed_iff : rest.changeOf p = .removed ↔ rest.partner? p = none := by
  unfold changeOf
  cases rest.partner? p with
  | some q =>
    have hchange := Policy.changeTo_ne_removed p q.2
    simpa using hchange
  | none => simp

theorem changeOf_eq_equal_iff : rest.changeOf p = .equal ↔ ∃ q ∈ rest, p.equivalent q.2 := by
  unfold changeOf
  cases h : rest.partner? p with
  | some q =>
    obtain ⟨hmem, -, hequivalent⟩ := partner?_eq_some h
    rw [Policy.changeTo_eq_equal_iff]
    exact ⟨fun he => ⟨q, hmem, he⟩, hequivalent⟩
  | none =>
    simp only [reduceCtorEq, false_iff, not_exists, not_and]
    exact fun q hq he => partner?_eq_none_iff.mp h q hq (Policy.isSame_of_equivalent he)

end Step

/-! ## Several policies -/

/-- What is available for the policy at a place of the first set. -/
def available (rest : Placed) (ps : List Policy) (i : Nat) : Placed := (ps.take i).foldl after rest

/-- The partner of the policy at a place of the first set. -/
def partnerAt? (rest : Placed) (ps : List Policy) (i : Nat) : Option (Nat × Policy) :=
  ps[i]?.bind (rest.available ps i).partner?

section Run

variable {rest : Placed} {ps : List Policy}

theorem available_zero : rest.available ps 0 = rest := rfl

theorem available_cons_succ (p : Policy) (i : Nat) :
    rest.available (p :: ps) (i + 1) = (rest.after p).available ps i := rfl

theorem available_succ {i : Nat} {p : Policy} (h : ps[i]? = some p) :
    rest.available ps (i + 1) = (rest.available ps i).after p := by
  unfold available
  rw [List.take_add_one, h, List.foldl_append]
  rfl

theorem available_succ_of_none {i : Nat} (h : ps[i]? = none) :
    rest.available ps (i + 1) = rest.available ps i := by
  unfold available
  rw [List.take_add_one, h, List.foldl_append]
  rfl

/-- Available is what no earlier policy took. -/
theorem mem_available_iff {k : Nat} {q : Nat × Policy} :
    q ∈ rest.available ps k ↔
      q ∈ rest ∧ ∀ i < k, ∀ r, rest.partnerAt? ps i = some r → r.1 ≠ q.1 := by
  induction k with
  | zero => simp [available_zero]
  | succ k ih =>
    have hstep : q ∈ rest.available ps (k + 1) ↔ q ∈ rest.available ps k ∧
        ∀ r, rest.partnerAt? ps k = some r → r.1 ≠ q.1 := by
      unfold partnerAt?
      cases h : ps[k]? with
      | some p =>
        rw [available_succ h, mem_after_iff]
        rfl
      | none =>
        rw [available_succ_of_none h]
        simp
    rw [hstep, ih, and_assoc]
    refine and_congr_right fun _ => ?_
    constructor
    · rintro ⟨hbefore, hlast⟩ i hi
      rcases Nat.lt_succ_iff_lt_or_eq.mp hi with hi | rfl
      · exact hbefore i hi
      · exact hlast
    · exact fun h => ⟨fun i hi => h i (Nat.lt_succ_of_lt hi), h k (Nat.lt_succ_self k)⟩

theorem sublist_after (rest : Placed) (p : Policy) : (rest.after p).Sublist rest := by
  unfold after
  cases rest.partner? p with
  | some q => exact List.filter_sublist
  | none => exact List.Sublist.refl _

theorem sublist_available (rest : Placed) (ps : List Policy) (k : Nat) :
    (rest.available ps k).Sublist rest := by
  induction k with
  | zero => exact List.Sublist.refl _
  | succ k ih =>
    cases h : ps[k]? with
    | some p =>
      rw [available_succ h]
      exact (sublist_after _ p).trans ih
    | none =>
      rw [available_succ_of_none h]
      exact ih

/-- The entries of policies and what they leave, in closed form. -/
theorem pair_eq (rest : Placed) (n : Nat) (ps : List Policy) :
    rest.pair n ps =
      (ps.mapIdx fun i p => .ofPolicy (n + i) p ((rest.available ps i).changeOf p),
        rest.available ps ps.length) := by
  induction ps generalizing rest n with
  | nil => rfl
  | cons p ps ih =>
    have hstep : rest.pair n (p :: ps) =
        (.ofPolicy n p (rest.changeOf p) :: ((rest.after p).pair (n + 1) ps).1,
          ((rest.after p).pair (n + 1) ps).2) := by
      rw [pair]
      unfold changeOf after
      cases rest.partner? p <;> rfl
    rw [hstep, ih, List.mapIdx_cons, List.length_cons, available_cons_succ]
    simp only [available_zero, available_cons_succ, Nat.add_zero, Nat.add_assoc, Nat.add_comm 1]

end Run

/-! ## All places of a set -/

theorem ofList_eq (n : Nat) (ps : List Policy) : ofList n ps = (ps.zipIdx n).map Prod.swap := by
  induction ps generalizing n with
  | nil => rfl
  | cons p ps ih =>
    unfold ofList
    rw [ih, List.zipIdx_cons, List.map_cons]
    rfl

theorem mem_ofList_iff {ps : List Policy} {q : Nat × Policy} :
    q ∈ ofList 0 ps ↔ ps[q.1]? = some q.2 := by
  rw [ofList_eq, ← Prod.swap_swap q, List.mem_map_of_injective Prod.swap_injective,
    List.mem_zipIdx_iff_getElem?]
  rfl

theorem places_ofList (ps : List Policy) :
    (ofList 0 ps).map Prod.fst = List.range ps.length := by
  rw [ofList_eq, List.map_map, List.range_eq_range', ← List.zipIdx_map_snd 0 ps]
  rfl

theorem policies_ofList (ps : List Policy) : (ofList 0 ps).map Prod.snd = ps := by
  rw [ofList_eq, List.map_map]
  exact List.zipIdx_map_fst 0 ps

end Placed

namespace PolicySet

/-- The entries of a comparison: first every policy of the first set with what became of it against
    what was available, then what is available in the end. -/
theorem compare_eq (source target : PolicySet) :
    compare source target =
      (source.mapIdx fun i p =>
        .ofPolicy i p (((Placed.ofList 0 target).available source i).changeOf p)) ++
      ((Placed.ofList 0 target).available source source.length).added := by
  unfold compare
  rw [Placed.pair_eq]
  simp only [Nat.zero_add]

variable {source target : PolicySet}

theorem take_compare :
    (compare source target).take source.length =
      source.mapIdx fun i p =>
        .ofPolicy i p (((Placed.ofList 0 target).available source i).changeOf p) := by
  rw [compare_eq, List.take_left' List.length_mapIdx]

theorem drop_compare :
    (compare source target).drop source.length =
      ((Placed.ofList 0 target).available source source.length).added := by
  rw [compare_eq, List.drop_left' List.length_mapIdx]

theorem getElem?_compare {i : Nat} {p : Policy} (hp : source[i]? = some p) :
    (compare source target)[i]? =
      some (.ofPolicy i p (((Placed.ofList 0 target).available source i).changeOf p)) := by
  have hi : i < source.length := (List.getElem?_eq_some_iff.mp hp).1
  rw [← List.getElem?_take_of_lt hi, take_compare, List.getElem?_mapIdx, hp]
  rfl

/-- An entry of a comparison is that of a policy of the first set or of one of the second that is
    available in the end. -/
theorem mem_compare {e : Entry} (h : e ∈ compare source target) :
    (∃ i p, source[i]? = some p ∧
      e = .ofPolicy i p (((Placed.ofList 0 target).available source i).changeOf p)) ∨
    ∃ q ∈ (Placed.ofList 0 target).available source source.length,
      e = .ofPolicy q.1 q.2 .added := by
  rw [compare_eq, List.mem_append] at h
  rcases h with h | h
  · obtain ⟨i, hi, rfl⟩ := List.mem_mapIdx.mp h
    exact Or.inl ⟨i, source[i], List.getElem?_eq_getElem hi, rfl⟩
  · obtain ⟨q, hq, rfl⟩ := List.mem_map.mp h
    exact Or.inr ⟨q, hq, rfl⟩

theorem mem_compare_of_available {q : Nat × Policy}
    (h : q ∈ (Placed.ofList 0 target).available source source.length) :
    .ofPolicy q.1 q.2 .added ∈ compare source target := by
  rw [compare_eq]
  exact List.mem_append_right _ (List.mem_map_of_mem h)

end PolicySet

end AccessPolicy
