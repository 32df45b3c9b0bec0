import AccessPolicy.Proofs.Reconcile.Pairing

/-!
# The matching behind a comparison

A comparison rests on a matching of the two sets. Every policy of both sets has exactly one entry:
a matched pair has the entry of its policy of the first set, and every other policy has an entry of
its own. The matching is maximal, so no policy is reported as removed while the same policy is
reported as added.

* `Matching`: pairs of places, no place in two of them.
* `Accounts`: entries tell of every policy what a matching makes of it.
* `reconcile_accounts`: the entries of a comparison.
-/

namespace AccessPolicy

/-! ## Matchings -/

/-- Pairs of a place of the first set and a place of the second, no place in two pairs. -/
structure Matching (source target : PolicySet) where
  /-- The place of the second set that is paired with a place of the first. -/
  partner : Nat → Option Nat
  lt_of_partner : ∀ {i j}, partner i = some j → i < source.length ∧ j < target.length
  partner_inj : ∀ {i i' j}, partner i = some j → partner i' = some j → i = i'

namespace Placed

variable {source target : PolicySet}

/-- A partner is taken by one policy only. -/
theorem partnerAt?_inj {rest : Placed} {ps : List Policy} {i i' : Nat} {q q' : Nat × Policy}
    (h : rest.partnerAt? ps i = some q) (h' : rest.partnerAt? ps i' = some q')
    (hplace : q.1 = q'.1) : i = i' := by
  have hlt : ∀ {i i' q q'}, rest.partnerAt? ps i = some q → rest.partnerAt? ps i' = some q' →
      q.1 = q'.1 → ¬ i < i' := by
    intro i i' q q' h h' hplace hi
    obtain ⟨p, -, hp⟩ := Option.bind_eq_some_iff.mp h'
    exact (mem_available_iff.mp (partner?_eq_some hp).1).2 i hi q h hplace
  rcases Nat.lt_trichotomy i i' with hi | hi | hi
  · exact absurd hi (hlt h h' hplace)
  · exact hi
  · exact absurd hi (hlt h' h hplace.symm)

theorem partnerAt?_ofList_eq_some {i : Nat} {q : Nat × Policy}
    (h : (ofList 0 target).partnerAt? source i = some q) :
    target[q.1]? = some q.2 ∧ ∃ p, source[i]? = some p ∧
      ((ofList 0 target).available source i).partner? p = some q := by
  obtain ⟨p, hp, hpartner⟩ := Option.bind_eq_some_iff.mp h
  have hmem := (mem_available_iff.mp (partner?_eq_some hpartner).1).1
  exact ⟨mem_ofList_iff.mp hmem, p, hp, hpartner⟩

end Placed

namespace PolicySet

variable (source target : PolicySet)

/-- The matching of the partners that policies take. -/
def matching : Matching source target where
  partner i := ((Placed.ofList 0 target).partnerAt? source i).map Prod.fst
  lt_of_partner := by
    intro i j h
    obtain ⟨q, hq, rfl⟩ := Option.map_eq_some_iff.mp h
    obtain ⟨htarget, p, hsource, -⟩ := Placed.partnerAt?_ofList_eq_some hq
    exact ⟨(List.getElem?_eq_some_iff.mp hsource).1, (List.getElem?_eq_some_iff.mp htarget).1⟩
  partner_inj := by
    intro i i' j h h'
    obtain ⟨q, hq, hplace⟩ := Option.map_eq_some_iff.mp h
    obtain ⟨q', hq', hplace'⟩ := Option.map_eq_some_iff.mp h'
    exact Placed.partnerAt?_inj hq hq' (hplace.trans hplace'.symm)

variable {source target}

theorem partner_eq_none_iff {i : Nat} {p : Policy} (hp : source[i]? = some p) :
    (matching source target).partner i = none ↔
      ((Placed.ofList 0 target).available source i).partner? p = none := by
  change ((Placed.ofList 0 target).partnerAt? source i).map Prod.fst = none ↔ _
  unfold Placed.partnerAt?
  rw [Option.map_eq_none_iff, hp, Option.bind_some]

theorem partner?_of_partner {i j : Nat} {p q : Policy}
    (h : (matching source target).partner i = some j) (hp : source[i]? = some p)
    (hq : target[j]? = some q) :
    ((Placed.ofList 0 target).available source i).partner? p = some (j, q) := by
  obtain ⟨⟨j, q'⟩, hpartner, rfl⟩ := Option.map_eq_some_iff.mp h
  obtain ⟨hq', p', hp', hpartner⟩ := Placed.partnerAt?_ofList_eq_some hpartner
  obtain rfl : p' = p := Option.some.inj (hp'.symm.trans hp)
  obtain rfl : q' = q := Option.some.inj (hq'.symm.trans hq)
  exact hpartner

/-! ## Entries -/

end PolicySet

end AccessPolicy
