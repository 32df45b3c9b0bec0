import AccessPolicy.Proofs.Reconcile.Matching

/-!
# Comparing policies with identifiers

Where every policy has an identifier of its own within its set, a comparison is the difference by
identifiers: a policy is matched with the one of its identifier, whatever was matched before. So the
order of the second set does not matter to the policies of the first. A comparison the other way
round matches the same pairs with the same changes, and what was removed is added.

* `Keyed`: sets in which every policy has an identifier of its own.
* `partner_eq_some_iff`: what is matched.
* `KeyedDiff`, `Mirrors`: what the entries tell, one way and the other way round.
* `reconcile_keyed`: a comparison of such sets.
-/

namespace AccessPolicy

/-! ## Two policies -/

namespace Policy

variable {p q : Policy}

theorem differences_comm (p q : Policy) : p.differences q = q.differences p := by
  unfold differences
  apply List.filter_congr
  intro field _
  cases field <;> simp only [differsIn, ne_comm]

theorem changeTo_comm (p q : Policy) : p.changeTo q = q.changeTo p := by
  unfold changeTo equivalent
  rw [differences_comm]

theorem isSame_iff_id_eq (hp : p.id ≠ none) (hq : q.id ≠ none) : p.isSame q ↔ p.id = q.id := by
  obtain ⟨a, ha⟩ := Option.ne_none_iff_exists'.mp hp
  obtain ⟨b, hb⟩ := Option.ne_none_iff_exists'.mp hq
  unfold isSame
  rw [ha, hb]
  simp

/-- The label of a policy with an identifier does not depend on its place. -/
theorem label_eq_of_id_eq (hp : p.id ≠ none) (hid : p.id = q.id) (i j : Nat) :
    p.label i = q.label j := by
  obtain ⟨a, ha⟩ := Option.ne_none_iff_exists'.mp hp
  unfold label
  rw [← hid, ha]

end Policy

namespace PolicySet

/-! ## Identifiers -/

/-- Every policy has an identifier, and no two have the same. -/
structure Keyed (ps : PolicySet) : Prop where
  id_ne_none : ∀ p ∈ ps, p.id ≠ none
  nodup_ids : (ps.map Policy.id).Nodup

namespace Keyed

variable {ps ps' : PolicySet} {p q : Policy}

theorem perm (h : ps.Keyed) (hperm : ps.Perm ps') : ps'.Keyed :=
  ⟨fun p hp => h.id_ne_none p (hperm.mem_iff.mpr hp),
    (hperm.map Policy.id).nodup_iff.mp h.nodup_ids⟩

theorem eq_of_id_eq (h : ps.Keyed) (hp : p ∈ ps) (hq : q ∈ ps) (hid : p.id = q.id) : p = q :=
  List.inj_on_of_nodup_map h.nodup_ids hp hq hid

theorem place_eq (h : ps.Keyed) {i j : Nat} (hp : ps[i]? = some p) (hq : ps[j]? = some q)
    (hid : p.id = q.id) : i = j := by
  have hi : i < (ps.map Policy.id).length := by
    rw [List.length_map]
    exact (List.getElem?_eq_some_iff.mp hp).1
  refine (List.getElem?_inj hi h.nodup_ids).mp ?_
  rw [List.getElem?_map, List.getElem?_map, hp, hq, Option.map_some, Option.map_some, hid]

end Keyed

/-! ## What is matched -/

section Matched

variable {source target : PolicySet} {i j : Nat} {p q : Policy}

/-- The policy of an identifier is available as long as the policy that it is matched with has not
    taken a partner. -/
theorem mem_available_of_id_eq (hsource : source.Keyed) (htarget : target.Keyed)
    (hp : source[i]? = some p) (hq : target[j]? = some q) (hid : p.id = q.id) :
    (j, q) ∈ (Placed.ofList 0 target).available source i := by
  refine Placed.mem_available_iff.mpr ⟨Placed.mem_ofList_iff.mpr hq, fun k hk r hr hplace => ?_⟩
  obtain ⟨hr', p', hp', hpartner⟩ := Placed.partnerAt?_ofList_eq_some hr
  obtain rfl : r.2 = q := by
    rw [hplace] at hr'
    exact Option.some.inj (hr'.symm.trans hq)
  -- an earlier policy with this partner would have the same identifier
  have hsame : p'.id = r.2.id := by
    have hp'mem := hsource.id_ne_none p' (List.mem_of_getElem? hp')
    have hrmem := htarget.id_ne_none r.2 (List.mem_of_getElem? hr')
    exact (Policy.isSame_iff_id_eq hp'mem hrmem).mp (Placed.partner?_eq_some hpartner).2.1
  exact absurd (hsource.place_eq hp' hp (hsame.trans hid.symm)) hk.ne

theorem partnerAt?_eq_some_iff (hsource : source.Keyed) (htarget : target.Keyed)
    {q : Nat × Policy} :
    (Placed.ofList 0 target).partnerAt? source i = some q ↔
      ∃ p, source[i]? = some p ∧ target[q.1]? = some q.2 ∧ p.id = q.2.id := by
  have hsame : ∀ p q, p ∈ source → q ∈ target → (p.isSame q ↔ p.id = q.id) := fun p q hp hq =>
    Policy.isSame_iff_id_eq (hsource.id_ne_none p hp) (htarget.id_ne_none q hq)
  constructor
  · intro h
    obtain ⟨hq, p, hp, hpartner⟩ := Placed.partnerAt?_ofList_eq_some h
    refine ⟨p, hp, hq, ?_⟩
    exact (hsame p q.2 (List.mem_of_getElem? hp) (List.mem_of_getElem? hq)).mp
      (Placed.partner?_eq_some hpartner).2.1
  · rintro ⟨p, hp, hq, hid⟩
    have hpmem := List.mem_of_getElem? hp
    have havailable := mem_available_of_id_eq hsource htarget hp hq hid
    unfold Placed.partnerAt?
    rw [hp, Option.bind_some]
    cases hpartner : ((Placed.ofList 0 target).available source i).partner? p with
    | none =>
      have hnone := Placed.partner?_eq_none_iff.mp hpartner _ havailable
      exact absurd ((hsame p q.2 hpmem (List.mem_of_getElem? hq)).mpr hid) hnone
    | some r =>
      -- whatever is found is the one policy of the identifier
      obtain ⟨hrmem, hr, -⟩ := Placed.partner?_eq_some hpartner
      have hrplace := Placed.mem_ofList_iff.mp (Placed.mem_available_iff.mp hrmem).1
      have hrid := (hsame p r.2 hpmem (List.mem_of_getElem? hrplace)).mp hr
      have hplace : r.1 = q.1 := htarget.place_eq hrplace hq (hrid.symm.trans hid)
      rw [hplace, hq] at hrplace
      rw [Prod.ext hplace (Option.some.inj hrplace).symm]

theorem partner_eq_some_iff (hsource : source.Keyed) (htarget : target.Keyed) :
    (matching source target).partner i = some j ↔
      ∃ p q, source[i]? = some p ∧ target[j]? = some q ∧ p.id = q.id := by
  change ((Placed.ofList 0 target).partnerAt? source i).map Prod.fst = some j ↔ _
  simp only [Option.map_eq_some_iff, partnerAt?_eq_some_iff hsource htarget]
  constructor
  · rintro ⟨⟨_, q⟩, ⟨p, hp, hq, hid⟩, rfl⟩
    exact ⟨p, q, hp, hq, hid⟩
  · rintro ⟨p, q, hp, hq, hid⟩
    exact ⟨(j, q), ⟨p, hp, hq, hid⟩, rfl⟩

theorem partner_eq_none_iff_forall (hsource : source.Keyed) (htarget : target.Keyed)
    (hp : source[i]? = some p) :
    (matching source target).partner i = none ↔ ∀ q ∈ target, q.id ≠ p.id := by
  rw [Option.eq_none_iff_forall_ne_some]
  constructor
  · intro h q hq hid
    obtain ⟨j, hj⟩ := List.mem_iff_getElem?.mp hq
    exact h j ((partner_eq_some_iff hsource htarget).mpr ⟨p, q, hp, hj, hid.symm⟩)
  · intro h j hj
    obtain ⟨p', q, hp', hq, hid⟩ := (partner_eq_some_iff hsource htarget).mp hj
    obtain rfl : p' = p := Option.some.inj (hp'.symm.trans hp)
    exact h q (List.mem_of_getElem? hq) hid.symm

end Matched

/-! ## What is left -/

section Left

variable {source target : PolicySet}

/-- What no policy has taken in the end are the policies whose identifiers do not occur. -/
theorem mem_available_length_iff_forall (hsource : source.Keyed) (htarget : target.Keyed)
    {q : Nat × Policy} :
    q ∈ (Placed.ofList 0 target).available source source.length ↔
      q ∈ Placed.ofList 0 target ∧ ∀ p ∈ source, p.id ≠ q.2.id := by
  rw [Placed.mem_available_iff]
  refine and_congr_right fun hq => ?_
  rw [Placed.mem_ofList_iff] at hq
  constructor
  · intro h p hp hid
    obtain ⟨i, hi⟩ := List.mem_iff_getElem?.mp hp
    have hlt : i < source.length := (List.getElem?_eq_some_iff.mp hi).1
    exact h i hlt q ((partnerAt?_eq_some_iff hsource htarget).mpr ⟨p, hi, hq, hid⟩) rfl
  · intro h i _ r hr hplace
    obtain ⟨p, hp, hr', hid⟩ := (partnerAt?_eq_some_iff hsource htarget).mp hr
    rw [hplace, hq, Option.some.injEq] at hr'
    rw [← hr'] at hid
    exact h p (List.mem_of_getElem? hp) hid

theorem available_length_eq_filter (hsource : source.Keyed) (htarget : target.Keyed) :
    (Placed.ofList 0 target).available source source.length =
      (Placed.ofList 0 target).filter fun q => source.all fun p => p.id ≠ q.2.id := by
  have hplaces : (Placed.ofList 0 target).Pairwise fun q r => q.1 < r.1 := by
    rw [← List.pairwise_map (f := Prod.fst), Placed.places_ofList]
    exact List.pairwise_lt_range
  refine List.Pairwise.eq_of_mem_iff
    (hplaces.sublist (Placed.sublist_available _ source source.length))
    (hplaces.sublist List.filter_sublist) fun q => ?_
  rw [mem_available_length_iff_forall hsource htarget, List.mem_filter]
  simp

end Left

/-! ## The entries -/

/-- Entries tell the difference of two sets by identifiers. -/
structure KeyedDiff (source target : PolicySet) (entries : List Entry) : Prop where
  /-- Policies are matched if they have the same identifier. -/
  partner_iff : ∀ {i j : Nat}, (matching source target).partner i = some j ↔
    ∃ p q, source[i]? = some p ∧ target[j]? = some q ∧ p.id = q.id
  removed_iff : ∀ {i : Nat} {p : Policy}, source[i]? = some p →
    (entries[i]? = some (.ofPolicy i p .removed) ↔ ∀ q ∈ target, q.id ≠ p.id)
  /-- No other policy has the identifier that a policy is matched by. -/
  unique : ∀ {p q q' : Policy}, p ∈ source → q ∈ target → q' ∈ target → q.id = p.id →
    q'.id = p.id → q = q'
  equal_of_id_eq : ∀ {i : Nat} {p q : Policy}, source[i]? = some p → q ∈ target → q.id = p.id →
    p.differences q = [] → entries[i]? = some (.ofPolicy i p .equal)
  changed_of_id_eq : ∀ {i : Nat} {p q : Policy}, source[i]? = some p → q ∈ target →
    q.id = p.id → p.differences q ≠ [] →
    entries[i]? = some (.ofPolicy i p (.changed (p.differences q)))
  /-- The other entries are those of the second set whose identifiers do not occur, in order. -/
  added_eq : entries.drop source.length =
    Placed.added ((Placed.ofList 0 target).filter fun q => source.all fun p => p.id ≠ q.2.id)

/-- The entries of one kind. -/
def ofKind (change : Change) (entries : List Entry) : List Entry :=
  entries.filter fun e => e.change = change

/-- Entries tell the same as those of the comparison the other way round. -/
structure Mirrors (source target : PolicySet) (entries mirrored : List Entry) : Prop where
  partner_iff : ∀ i j, (matching source target).partner i = some j ↔
    (matching target source).partner j = some i
  /-- Both policies of a pair have the same label and the same change. -/
  matched : ∀ {i j : Nat}, (matching source target).partner i = some j → ∃ label change,
    entries[i]? = some ⟨i, label, change⟩ ∧ mirrored[j]? = some ⟨j, label, change⟩
  removed_eq : ofKind .removed entries =
    (ofKind .added mirrored).map fun e => { e with change := .removed }
  added_eq : ofKind .added entries =
    (ofKind .removed mirrored).map fun e => { e with change := .added }

section Entries

variable {source target : PolicySet} {i : Nat} {p q : Policy}

theorem changeOf_eq_removed_iff_forall (hsource : source.Keyed) (htarget : target.Keyed)
    (hp : source[i]? = some p) :
    ((Placed.ofList 0 target).available source i).changeOf p = .removed ↔
      ∀ q ∈ target, q.id ≠ p.id := by
  rw [Placed.changeOf_eq_removed_iff, ← partner_eq_none_iff hp,
    partner_eq_none_iff_forall hsource htarget hp]

theorem getElem?_compare_eq_removed_iff (hsource : source.Keyed) (htarget : target.Keyed)
    (hp : source[i]? = some p) :
    (compare source target)[i]? = some (.ofPolicy i p .removed) ↔ ∀ q ∈ target, q.id ≠ p.id := by
  rw [getElem?_compare hp, ← changeOf_eq_removed_iff_forall hsource htarget hp]
  simp [Entry.ofPolicy]

theorem getElem?_compare_of_id_eq (hsource : source.Keyed) (htarget : target.Keyed)
    (hp : source[i]? = some p) (hq : q ∈ target) (hid : q.id = p.id) :
    (compare source target)[i]? = some (.ofPolicy i p (p.changeTo q)) := by
  obtain ⟨j, hj⟩ := List.mem_iff_getElem?.mp hq
  have hpartner := (partner_eq_some_iff hsource htarget).mpr ⟨p, q, hp, hj, hid.symm⟩
  rw [getElem?_compare hp]
  unfold Placed.changeOf
  rw [partner?_of_partner hpartner hp hj]

theorem keyedDiff_compare (hsource : source.Keyed) (htarget : target.Keyed) :
    KeyedDiff source target (compare source target) where
  partner_iff := partner_eq_some_iff hsource htarget
  removed_iff := getElem?_compare_eq_removed_iff hsource htarget
  unique := by
    intro p q q' _ hq hq' hid hid'
    exact htarget.eq_of_id_eq hq hq' (hid.trans hid'.symm)
  equal_of_id_eq := by
    intro i p q hp hq hid hdifferences
    rw [getElem?_compare_of_id_eq hsource htarget hp hq hid,
      Policy.changeTo_of_differences_eq_nil hdifferences]
  changed_of_id_eq := by
    intro i p q hp hq hid hdifferences
    rw [getElem?_compare_of_id_eq hsource htarget hp hq hid,
      Policy.changeTo_of_differences_ne_nil hdifferences]
  added_eq := by rw [drop_compare, available_length_eq_filter hsource htarget]

/-- The order of the second set does not matter to the policies of the first. -/
theorem take_compare_perm (hsource : source.Keyed) (htarget : target.Keyed) {target' : PolicySet}
    (hperm : target.Perm target') :
    (compare source target').take source.length = (compare source target).take source.length := by
  have htarget' := htarget.perm hperm
  refine List.ext_getElem? fun i => ?_
  by_cases hi : i < source.length
  · have hp := List.getElem?_eq_getElem hi
    rw [List.getElem?_take_of_lt hi, List.getElem?_take_of_lt hi]
    by_cases h : ∃ q ∈ target, q.id = source[i].id
    · obtain ⟨q, hq, hid⟩ := h
      have hq' : q ∈ target' := hperm.mem_iff.mp hq
      rw [getElem?_compare_of_id_eq hsource htarget hp hq hid,
        getElem?_compare_of_id_eq hsource htarget' hp hq' hid]
    · have hnone : ∀ q ∈ target, q.id ≠ source[i].id := fun q hq hid => h ⟨q, hq, hid⟩
      have hnone' : ∀ q ∈ target', q.id ≠ source[i].id := fun q hq =>
        hnone q (hperm.mem_iff.mpr hq)
      rw [(getElem?_compare_eq_removed_iff hsource htarget hp).mpr hnone,
        (getElem?_compare_eq_removed_iff hsource htarget' hp).mpr hnone']
  · rw [List.getElem?_take_eq_none (not_lt.mp hi), List.getElem?_take_eq_none (not_lt.mp hi)]

/-! ## The other way round -/

theorem ofKind_append (change : Change) (entries entries' : List Entry) :
    ofKind change (entries ++ entries') = ofKind change entries ++ ofKind change entries' :=
  List.filter_append entries entries'

theorem ofKind_map (change : Change) (changeAt : Nat × Policy → Change) (placed : Placed) :
    ofKind change (placed.map fun p => .ofPolicy p.1 p.2 (changeAt p)) =
      (placed.filter fun p => changeAt p = change).map fun p => .ofPolicy p.1 p.2 change := by
  unfold ofKind
  rw [List.filter_map]
  refine List.map_congr_left fun p hp => ?_
  have hchange : changeAt p = change := of_decide_eq_true (List.mem_filter.mp hp).2
  rw [hchange]

theorem compare_eq_map (source target : PolicySet) :
    compare source target =
      ((Placed.ofList 0 source).map fun p =>
        .ofPolicy p.1 p.2 (((Placed.ofList 0 target).available source p.1).changeOf p.2)) ++
      ((Placed.ofList 0 target).available source source.length).added := by
  rw [compare_eq, Placed.ofList_eq 0 source, List.mapIdx_eq_zipIdx_map, List.map_map]
  rfl

theorem ofKind_added_compare (source target : PolicySet) :
    ofKind .added (compare source target) =
      ((Placed.ofList 0 target).available source source.length).added := by
  unfold Placed.added
  rw [compare_eq_map, ofKind_append, ofKind_map, Placed.added, ofKind_map]
  simp [Placed.changeOf_ne_added]

theorem ofKind_removed_compare (hsource : source.Keyed) (htarget : target.Keyed) :
    ofKind .removed (compare source target) =
      ((Placed.ofList 0 source).filter fun p => target.all fun q => q.id ≠ p.2.id).map
        fun p => .ofPolicy p.1 p.2 .removed := by
  have hremoved : ∀ p ∈ Placed.ofList 0 source,
      decide (((Placed.ofList 0 target).available source p.1).changeOf p.2 = .removed) =
        target.all fun q => q.id ≠ p.2.id := by
    intro p hp
    have hiff := changeOf_eq_removed_iff_forall hsource htarget (Placed.mem_ofList_iff.mp hp)
    rw [Bool.eq_iff_iff, decide_eq_true_eq, hiff, List.all_eq_true]
    simp
  rw [compare_eq_map, ofKind_append, ofKind_map, Placed.added, ofKind_map,
    List.filter_congr hremoved]
  simp

/-- What was added is removed the other way round, under the same label. -/
theorem ofKind_added_eq_map_removed (hsource : source.Keyed) (htarget : target.Keyed) :
    ofKind .added (compare source target) =
      (ofKind .removed (compare target source)).map fun e => { e with change := .added } := by
  rw [ofKind_added_compare, available_length_eq_filter hsource htarget,
    ofKind_removed_compare htarget hsource, List.map_map]
  rfl

theorem ofKind_removed_eq_map_added (hsource : source.Keyed) (htarget : target.Keyed) :
    ofKind .removed (compare source target) =
      (ofKind .added (compare target source)).map fun e => { e with change := .removed } := by
  rw [ofKind_added_compare, available_length_eq_filter htarget hsource,
    ofKind_removed_compare hsource htarget]
  unfold Placed.added
  rw [List.map_map]
  rfl

theorem mirrors_compare (hsource : source.Keyed) (htarget : target.Keyed) :
    Mirrors source target (compare source target) (compare target source) where
  partner_iff := by
    intro i j
    rw [partner_eq_some_iff hsource htarget, partner_eq_some_iff htarget hsource]
    constructor
    · rintro ⟨p, q, hp, hq, hid⟩
      exact ⟨q, p, hq, hp, hid.symm⟩
    · rintro ⟨q, p, hq, hp, hid⟩
      exact ⟨p, q, hp, hq, hid.symm⟩
  matched := by
    intro i j h
    obtain ⟨p, q, hp, hq, hid⟩ := (partner_eq_some_iff hsource htarget).mp h
    have hpmem := List.mem_of_getElem? hp
    have hqmem := List.mem_of_getElem? hq
    refine ⟨p.label i, p.changeTo q, ?_, ?_⟩
    · exact getElem?_compare_of_id_eq hsource htarget hp hqmem hid.symm
    · rw [getElem?_compare_of_id_eq htarget hsource hq hpmem hid, Policy.changeTo_comm p q,
        Policy.label_eq_of_id_eq (hsource.id_ne_none p hpmem) hid i j]
      rfl
  removed_eq := ofKind_removed_eq_map_added hsource htarget
  added_eq := ofKind_added_eq_map_removed hsource htarget

end Entries

/-- **Identifiers.** A comparison of sets in which every policy has an identifier of its own is the
    difference by identifiers: a policy is removed exactly if its identifier does not occur in the
    second set, otherwise it is compared with the one policy that has it, and those policies of the
    second set are added whose identifiers do not occur in the first. No order of the second set
    changes an entry of the first. The other way round the same pairs have the same changes, and
    what was removed is added. -/
theorem reconcile_keyed {source target : PolicySet} (hsource : source.Keyed)
    (htarget : target.Keyed) :
    KeyedDiff source target (reconcile source target false) ∧
      (∀ target' : PolicySet, target.Perm target' →
        (reconcile source target' false).take source.length =
          (reconcile source target false).take source.length) ∧
      Mirrors source target (reconcile source target false) (reconcile target source false) :=
  ⟨keyedDiff_compare hsource htarget, fun _ => take_compare_perm hsource htarget,
    mirrors_compare hsource htarget⟩

/-- One policy is unchanged, one has another action, one is removed and one is added. -/
theorem reconcile_keyed_shared :
    let album : Policy :=
      { id := some "album", subject := { members := ["user:alice"] }
        actions := [⟨"view", "view", false⟩] }
    let photo : Policy := { album with id := some "photo" }
    let photo' : Policy := { photo with actions := [⟨"edit", "edit", false⟩] }
    let video : Policy := { album with id := some "video" }
    let note : Policy := { album with id := some "note" }
    Keyed [album, photo, video] ∧ Keyed [note, photo', album] ∧
      (reconcile [album, photo, video] [note, photo', album] false)[1]? =
        some ⟨1, "'photo'", .changed [.actions]⟩ ∧
      (reconcile [album, photo, video] [album, note, photo'] false).take 3 =
        [⟨0, "'album'", .equal⟩, ⟨1, "'photo'", .changed [.actions]⟩, ⟨2, "'video'", .removed⟩] ∧
      ofKind .added (reconcile [note, photo', album] [album, photo, video] false) =
        [⟨2, "'video'", .added⟩] := by
  intro album photo photo' video note
  have hsource : Keyed [album, photo, video] := ⟨by decide, by decide⟩
  have htarget : Keyed [note, photo', album] := ⟨by decide, by decide⟩
  obtain ⟨hdiff, hperm, -⟩ := reconcile_keyed hsource htarget
  obtain ⟨-, -, hmirrors⟩ := reconcile_keyed htarget hsource
  have hdifferences : photo.differences photo' = [.actions] := by decide +kernel
  have hchanged := hdiff.changed_of_id_eq (i := 1) (p := photo) (q := photo') rfl (by decide) rfl
    (by rw [hdifferences]; decide)
  have hmoved := hperm [album, note, photo'] (by decide)
  refine ⟨hsource, htarget, ?_, ?_, ?_⟩
  · rw [hchanged, hdifferences]
    decide
  · exact hmoved.trans (by decide +kernel)
  · exact hmirrors.added_eq.trans (by decide +kernel)

end PolicySet

end AccessPolicy
