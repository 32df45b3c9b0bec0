import AccessPolicy.Proofs.Reconcile.Unchanged

/-!
# How many policies count as equal

A policy takes its partner before later policies are looked at. So an equal of `p` in the second set
may go to an earlier policy that is the same policy as `p` and yet differs from it. This policy then
counts as changed, and `p`, which is on both sides, may be left without an equal.

* `Placed.pairing`: what each policy takes.
* `displaced`: how many equals of a policy go to policies that differ from it.
* `countP_settles_eq`: how many of the equals of a policy count as equal, for the run.
* `countP_equal_eq`: the same for a comparison, and when it is as many as both sets have.
-/

namespace AccessPolicy

/-! ## Policies that differ in no part -/

namespace Policy

variable {p q r : Policy}

theorem equivalent_congr (h : p.equivalent q) : p.equivalent r ↔ q.equivalent r := by
  rw [equivalent_iff_canonical, equivalent_iff_canonical, equivalent_iff_canonical.mp h]

/-- Whether a policy is the same as another only depends on the other up to equivalence. -/
theorem isSame_congr (h : p.equivalent q) : r.isSame p = r.isSame q :=
  isSame_eq_of_equivalent (equivalent_iff_canonical.mpr rfl) h

end Policy

namespace Placed

variable {rest : Placed}

/-! ## One policy -/

/-- A policy takes one that does not differ from `p`. -/
def takes (p : Policy) (taken : Policy × Option (Nat × Policy)) : Bool :=
  taken.2.any fun q => p.equivalent q.2

/-- An equal of `p` takes one of the equals of `p`, so it counts as equal. -/
def settles (p : Policy) (taken : Policy × Option (Nat × Policy)) : Bool :=
  p.equivalent taken.1 && takes p taken

/-- A policy that differs from `p` takes one of the equals of `p`. -/
def displaces (p : Policy) (taken : Policy × Option (Nat × Policy)) : Bool :=
  !p.equivalent taken.1 && takes p taken

/-- The number of policies available that do not differ from `p`. -/
def equals (rest : Placed) (p : Policy) : Nat := rest.countP fun q => p.equivalent q.2

/-- An equal of `p` takes one of the equals of `p` as long as there is one. -/
theorem takes_iff {p q : Policy} (h : p.equivalent q) :
    takes p (q, rest.partner? q) = true ↔ 0 < rest.equals p := by
  unfold takes equals
  rw [List.countP_pos_iff, Option.any_eq_true]
  constructor
  · rintro ⟨r, hr, hequivalent⟩
    exact ⟨r, (partner?_eq_some hr).1, hequivalent⟩
  · rintro ⟨r, hr, hequivalent⟩
    obtain ⟨s, hs, hqs⟩ := exists_partner? ⟨r, hr, (Policy.equivalent_congr h).mp hequivalent⟩
    exact ⟨s, hs, (Policy.equivalent_congr h).mpr hqs⟩

/-- What a policy takes is no longer available, and nothing else changes. -/
theorem equals_after (hrest : (rest.map Prod.fst).Nodup) (p q : Policy) :
    rest.equals p =
      (rest.after q).equals p + if takes p (q, rest.partner? q) then 1 else 0 := by
  unfold equals takes
  cases hpartner : rest.partner? q with
  | none =>
    have hafter : rest.after q = rest := by
      unfold after
      rw [hpartner]
    simp [hafter]
  | some r =>
    rw [(perm_after hrest hpartner).countP_eq, List.countP_cons]
    rfl

theorem settles_iff {p q : Policy} :
    settles p (q, rest.partner? q) = true ↔ p.equivalent q ∧ rest.changeOf q = .equal := by
  unfold settles
  rw [Bool.and_eq_true]
  refine and_congr_right fun h => ?_
  rw [takes_iff h, changeOf_eq_equal_iff, equals, List.countP_pos_iff]
  simp only [Policy.equivalent_congr h]

/-! ## All policies -/

/-- Policies with the partners that they take. -/
def pairing (rest : Placed) (ps : List Policy) : List (Policy × Option (Nat × Policy)) :=
  ps.mapIdx fun i p => (p, (rest.available ps i).partner? p)

theorem pairing_cons (p : Policy) (ps : List Policy) :
    rest.pairing (p :: ps) = (p, rest.partner? p) :: (rest.after p).pairing ps := by
  unfold pairing
  rw [List.mapIdx_cons]
  rfl

theorem mem_pairing {ps : List Policy} {taken : Policy × Option (Nat × Policy)}
    (h : taken ∈ rest.pairing ps) :
    taken.1 ∈ ps ∧ ∀ q, taken.2 = some q → q ∈ rest ∧ taken.1.isSame q.2 := by
  obtain ⟨i, hi, rfl⟩ := List.mem_mapIdx.mp h
  refine ⟨List.getElem_mem hi, fun q hq => ?_⟩
  obtain ⟨hmem, hsame, -⟩ := partner?_eq_some hq
  exact ⟨(mem_available_iff.mp hmem).1, hsame⟩

/-- An equal of `p` is taken by an equal, taken by a policy that differs from it, or left. -/
theorem settled_add_displaced_le (hrest : (rest.map Prod.fst).Nodup) (p : Policy)
    (ps : List Policy) :
    (rest.pairing ps).countP (settles p) + (rest.pairing ps).countP (displaces p) ≤
      rest.equals p := by
  induction ps generalizing rest with
  | nil => simp [pairing]
  | cons q ps ih =>
    have hlater := ih (nodup_after hrest q)
    have hfirst := equals_after hrest p q
    rw [pairing_cons, List.countP_cons, List.countP_cons, settles, displaces]
    cases p.equivalent q <;> cases htakes : takes p (q, rest.partner? q) <;>
      simp only [htakes, Bool.not_true, Bool.not_false, Bool.and_true, Bool.and_false,
        if_true, if_false, Bool.false_eq_true] at hfirst ⊢ <;> omega

/-- The equals of `p` count as equal until those available are used up, by them or by policies that
    differ from `p`. -/
theorem countP_settles_eq (hrest : (rest.map Prod.fst).Nodup) (p : Policy) (ps : List Policy) :
    (rest.pairing ps).countP (settles p) =
      min (ps.countP p.equivalent) (rest.equals p - (rest.pairing ps).countP (displaces p)) := by
  induction ps generalizing rest with
  | nil => simp [pairing]
  | cons q ps ih =>
    have hlater := ih (nodup_after hrest q)
    have hbound := settled_add_displaced_le (nodup_after hrest q) p ps
    have hfirst := equals_after hrest p q
    rw [pairing_cons, List.countP_cons, List.countP_cons, List.countP_cons, settles, displaces]
    by_cases hq : p.equivalent q
    · -- an equal of `p` goes without one only if none is left
      have htakes : takes p (q, rest.partner? q) = true ↔ 0 < rest.equals p := takes_iff hq
      by_cases h : takes p (q, rest.partner? q) = true
      · simp only [hq, h, Bool.not_true, Bool.and_true, if_true, if_false,
          Bool.false_eq_true] at hfirst ⊢
        omega
      · have hnone : rest.equals p = 0 := Nat.eq_zero_of_not_pos fun hpos => h (htakes.mpr hpos)
        simp only [hq, h, Bool.not_true, Bool.and_false, if_true, if_false,
          Bool.false_eq_true] at hfirst ⊢
        omega
    · by_cases h : takes p (q, rest.partner? q) = true
      · simp only [hq, h, Bool.not_false, Bool.false_and, Bool.and_self, if_true, if_false,
          Bool.false_eq_true] at hfirst ⊢
        omega
      · simp only [hq, h, Bool.and_false, if_false, Bool.false_eq_true] at hfirst ⊢
        omega

end Placed

/-! ## Comparisons -/

namespace PolicySet

variable {source target : PolicySet}

/-- The number of policies of the first set that differ from `p` and take a policy of the second
    set that does not. -/
def displaced (source target : PolicySet) (p : Policy) : Nat :=
  ((Placed.ofList 0 target).pairing source).countP (Placed.displaces p)

/-- The number of policies of the first set that do not differ from `p` and count as equal. -/
def settled (source target : PolicySet) (p : Policy) : Nat :=
  (source.zip (reconcile source target false)).countP fun x =>
    p.equivalent x.1 && x.2.change = .equal

theorem zip_reconcile (source target : PolicySet) :
    source.zip (reconcile source target false) =
      source.mapIdx fun i p =>
        (p, .ofPolicy i p (((Placed.ofList 0 target).available source i).changeOf p)) := by
  change source.zip (compare source target) = _
  have hlength : source.length ≤ (compare source target).length := by
    rw [compare_eq, List.length_append, List.length_mapIdx]
    exact Nat.le_add_right _ _
  refine List.ext_getElem (by simp [hlength]) fun i hi hi' => ?_
  rw [List.length_mapIdx] at hi'
  have hentry : (compare source target)[i]? = some (.ofPolicy i source[i]
      (((Placed.ofList 0 target).available source i).changeOf source[i])) :=
    getElem?_compare (List.getElem?_eq_getElem hi')
  obtain ⟨_, hentry⟩ := List.getElem?_eq_some_iff.mp hentry
  rw [List.getElem_zip, List.getElem_mapIdx, hentry]

theorem settled_eq (source target : PolicySet) (p : Policy) :
    settled source target p =
      ((Placed.ofList 0 target).pairing source).countP (Placed.settles p) := by
  unfold settled Placed.pairing
  rw [zip_reconcile, List.mapIdx_eq_zipIdx_map, List.mapIdx_eq_zipIdx_map, List.countP_map,
    List.countP_map]
  apply List.countP_congr
  rintro ⟨q, i⟩ _
  dsimp only [Function.comp_apply]
  rw [Bool.and_eq_true, decide_eq_true_eq, Placed.settles_iff]
  rfl

theorem equals_ofList (target : PolicySet) (p : Policy) :
    (Placed.ofList 0 target).equals p = target.countP p.equivalent := by
  conv_rhs => rw [← Placed.policies_ofList target, List.countP_map]
  rfl

/-- Only a policy that is the same policy as `p` and differs from it takes an equal of `p` away. -/
theorem displaced_eq_zero {p : Policy} (h : ∀ q ∈ source, q.isSame p → p.equivalent q) :
    displaced source target p = 0 := by
  unfold displaced
  rw [List.countP_eq_zero]
  rintro ⟨q, partner⟩ hmem hdisplaces
  obtain ⟨hq, hpartner⟩ := Placed.mem_pairing hmem
  unfold Placed.displaces Placed.takes at hdisplaces
  rw [Bool.and_eq_true, Bool.not_eq_true', Option.any_eq_true] at hdisplaces
  obtain ⟨hdiffers, r, hr, hequivalent⟩ := hdisplaces
  have hsame : q.isSame p := by
    rw [Policy.isSame_congr hequivalent]
    exact (hpartner r hr).2
  rw [h q hq hsame] at hdiffers
  cases hdiffers

/-- **Equal policies.** Of the policies that do not differ from `p`, as many count as equal as there
    are in both sets, less those of the second set that go to policies that differ from `p`. So all
    that can count as equal do exactly if nothing is displaced or enough is left. This is so where
    no policy of the first set is the same policy as `p` and differs from it. -/
theorem settled_eq_min (source target : PolicySet) (p : Policy) :
    settled source target p =
        min (source.countP p.equivalent)
          (target.countP p.equivalent - displaced source target p) ∧
      (settled source target p = min (source.countP p.equivalent) (target.countP p.equivalent) ↔
        displaced source target p = 0 ∨
          source.countP p.equivalent + displaced source target p ≤
            target.countP p.equivalent) ∧
      ((∀ q ∈ source, q.isSame p → p.equivalent q) →
        settled source target p =
          min (source.countP p.equivalent) (target.countP p.equivalent)) := by
  have hnodup : ((Placed.ofList 0 target).map Prod.fst).Nodup := by
    rw [Placed.places_ofList]
    exact List.nodup_range
  have hsettled := Placed.countP_settles_eq hnodup p source
  have hbound := Placed.settled_add_displaced_le hnodup p source
  rw [← settled_eq, equals_ofList] at hsettled hbound
  change _ = min _ (_ - displaced source target p) at hsettled
  change _ + displaced source target p ≤ _ at hbound
  refine ⟨hsettled, by omega, fun h => ?_⟩
  rw [hsettled, displaced_eq_zero h, Nat.sub_zero]

/-- Alice may view the album. -/
def viewing : Policy :=
  { subject := { members := ["user:alice"] }, actions := [⟨"view", "view", false⟩]
    object := some ⟨some "album", none⟩ }

/-- Alice may view the album, but not late. -/
def viewingInTime : Policy := { viewing with condition := some ⟨"context.late", .deny⟩ }

/-- Carol may edit the album. -/
def editing : Policy :=
  { subject := { members := ["user:carol"] }, actions := [⟨"edit", "edit", false⟩]
    object := some ⟨some "album", none⟩ }

/-- Of two policies that are on both sides, only one counts as equal where a third one displaces the
    other. Policies in another order count as equal. -/
theorem settled_eq_min_viewing :
    settled [viewingInTime, viewing, viewing] [viewing, viewing] viewing = 1 ∧
      settled [viewing, editing] [editing, viewing] viewing = 1 := by
  have hdisplaced : displaced [viewingInTime, viewing, viewing] [viewing, viewing] viewing = 1 := by
    decide +kernel
  have hfirst := (settled_eq_min [viewingInTime, viewing, viewing] [viewing, viewing] viewing).1
  have hsecond := (settled_eq_min [viewing, editing] [editing, viewing] viewing).2.2
  rw [hdisplaced] at hfirst
  exact ⟨hfirst.trans (by decide +kernel), (hsecond (by decide +kernel)).trans (by decide +kernel)⟩

/-- So a policy that is unchanged on both sides may be reported as removed. -/
theorem unchanged_but_removed :
    ¬ ∀ (source target : PolicySet) (p : Policy),
      settled source target p =
        min (source.countP p.equivalent) (target.countP p.equivalent) := by
  intro h
  have hequal := h [viewingInTime, viewing] [viewing, editing] viewing
  have hentries : reconcile [viewingInTime, viewing] [viewing, editing] false =
      [⟨0, "#0", .changed [.condition]⟩, ⟨1, "#1", .removed⟩, ⟨1, "#1", .added⟩] := by
    decide +kernel
  unfold settled at hequal
  rw [hentries] at hequal
  revert hequal
  decide +kernel

end PolicySet

end AccessPolicy
