import AccessPolicy.Proofs.Distinct

/-!
# Groups by key

The elements of a list that have the same key form a group. Groups stand in the order in which
their keys first come, and an element keeps its place among those of its group.

* `grouped`: the elements of each key.
* `grouped_eraseDups`: repeats may be erased before grouping.
* `grouped_flatMap`: blocks with distinct keys are the groups of their elements.
* `nodup_flatMap`: blocks with distinct keys share no element.
-/

namespace AccessPolicy

variable {α β κ : Type} {key : α → κ}

/-- Blocks with distinct keys and without repeats have no repeats together. -/
theorem nodup_flatMap {k : β → κ} {block : β → List α} {bs : List β} (hbs : (bs.map k).Nodup)
    (hkey : ∀ b ∈ bs, ∀ x ∈ block b, key x = k b) (hblock : ∀ b ∈ bs, (block b).Nodup) :
    (bs.flatMap block).Nodup := by
  rw [List.nodup_flatMap]
  refine ⟨hblock, (List.pairwise_map.mp hbs).imp_of_mem fun hb hb' hne x hx hx' => hne ?_⟩
  rw [← hkey _ hb x hx, hkey _ hb' x hx']

variable [DecidableEq κ]

/-- The elements of each key, with the keys in the order in which they first come. -/
def grouped (key : α → κ) (xs : List α) : List (κ × List α) :=
  (xs.map key).eraseDups.map fun k => (k, xs.filter fun x => key x = k)

theorem mem_grouped_iff {xs : List α} {g : κ × List α} :
    g ∈ grouped key xs ↔ g.1 ∈ xs.map key ∧ g.2 = xs.filter fun x => key x = g.1 := by
  unfold grouped
  rw [List.mem_map]
  constructor
  · rintro ⟨k, hk, rfl⟩
    exact ⟨List.mem_eraseDups.mp hk, rfl⟩
  · rintro ⟨hk, hg⟩
    exact ⟨g.1, List.mem_eraseDups.mpr hk, by rw [← hg]⟩

theorem keys_grouped (xs : List α) :
    (grouped key xs).map Prod.fst = (xs.map key).eraseDups := by
  unfold grouped
  rw [List.map_map]
  exact List.map_id _

theorem grouped_eraseDups [DecidableEq α] (xs : List α) :
    grouped key xs.eraseDups = (grouped key xs).map fun g => (g.1, g.2.eraseDups) := by
  unfold grouped
  rw [eraseDups_map_eraseDups, List.map_map]
  apply List.map_congr_left
  intro k _
  rw [filter_eraseDups]
  rfl

/-- Elements with one key in front of elements with others are the first group. -/
theorem grouped_append {k : κ} {xs ys : List α} (hxs : ∀ x ∈ xs, key x = k) (hne : xs ≠ [])
    (hys : ∀ y ∈ ys, key y ≠ k) : grouped key (xs ++ ys) = (k, xs) :: grouped key ys := by
  have hkeys : ((xs ++ ys).map key).eraseDups = k :: (ys.map key).eraseDups := by
    obtain ⟨x, xs, rfl⟩ := List.exists_cons_of_ne_nil hne
    obtain ⟨rfl, hxs⟩ := List.forall_mem_cons.mp hxs
    rw [List.cons_append, List.map_cons, List.eraseDups_cons, List.map_append, List.filter_append,
      List.filter_eq_nil_iff.mpr (by simpa using hxs), List.nil_append,
      List.filter_eq_self.mpr (by simpa using hys)]
  unfold grouped
  rw [hkeys, List.map_cons, List.filter_append, List.filter_eq_self.mpr (by simpa using hxs),
    List.filter_eq_nil_iff.mpr (by simpa using hys), List.append_nil]
  congr 1
  apply List.map_congr_left
  intro k' hk'
  obtain ⟨y, hy, rfl⟩ := List.mem_map.mp (List.mem_eraseDups.mp hk')
  have hother : xs.filter (fun x => key x = key y) = [] := by
    rw [List.filter_eq_nil_iff]
    intro x hx
    rw [hxs x hx]
    simpa using (hys y hy).symm
  rw [List.filter_append, hother, List.nil_append]

/-- Blocks with distinct keys are the groups of their elements, but for blocks that are empty. -/
theorem grouped_flatMap {k : β → κ} {block : β → List α} {bs : List β} (hbs : (bs.map k).Nodup)
    (hkey : ∀ b ∈ bs, ∀ x ∈ block b, key x = k b) :
    grouped key (bs.flatMap block) =
      (bs.filter fun b => block b ≠ []).map fun b => (k b, block b) := by
  induction bs with
  | nil => rfl
  | cons b bs ih =>
    obtain ⟨hb, hbs⟩ := List.nodup_cons.mp hbs
    obtain ⟨hfirst, hothers⟩ := List.forall_mem_cons.mp hkey
    rw [List.flatMap_cons]
    by_cases hempty : block b = []
    · rw [hempty, List.nil_append, List.filter_cons_of_neg (by simpa using hempty),
        ih hbs hothers]
    · have hlater : ∀ x ∈ bs.flatMap block, key x ≠ k b := by
        intro x hx hk
        obtain ⟨b', hb', hx⟩ := List.mem_flatMap.mp hx
        rw [hothers b' hb' x hx] at hk
        exact hb (hk ▸ List.mem_map_of_mem hb')
      rw [grouped_append hfirst hempty hlater, List.filter_cons_of_pos (by simpa using hempty),
        List.map_cons, ih hbs hothers]

end AccessPolicy
