import AccessPolicy.Distinct
import Mathlib.Data.List.Basic
import Mathlib.Data.List.Induction
import Mathlib.Data.List.Nodup

/-!
# Lists that grow by distinct elements

`addAll` keeps first occurrences: in closed form it appends to `xs` what `ys` has beyond `xs`, with
repeats erased. A loop that changes the entry of a key, or adds one, leaves an entry for each
distinct key in the order in which the keys first came, changed by the operations on that key alone.

* `addAll_eq`, `addAll_nil_eq`: `addAll` through `List.eraseDups`.
* `addAll_eq_self`, `eraseDups_flatMap_const`: what is there already, or comes again, adds nothing.
* `eraseDups_flatMap_eraseDups`, `eraseDups_map_eraseDups`: erasing repeats early changes nothing.
* `updateFirst_eq_self`, `getElem?_updateFirst_eq_some_iff`, `find?_updateFirst`: what one change
  leaves alone. `updateFirst_updateFirst`: two changes in a row.
* `find?_map_key`: the entry of a key.
* `foldl_updateFirst`: the entries that a loop of `updateFirst` leaves.
-/

namespace AccessPolicy

variable {α β κ : Type}

/-! ## Adding in order -/

section Add

variable [DecidableEq α]

theorem addAll_append (xs ys zs : List α) : addAll xs (ys ++ zs) = addAll (addAll xs ys) zs :=
  List.foldl_append

theorem addAll_cons (xs : List α) (y : α) (ys : List α) :
    addAll xs (y :: ys) = addAll (addNew xs y) ys := rfl

theorem addNew_of_mem {xs : List α} {x : α} (h : x ∈ xs) : addNew xs x = xs := by
  unfold addNew
  rw [if_pos h]

theorem addNew_of_notMem {xs : List α} {x : α} (h : x ∉ xs) : addNew xs x = xs ++ [x] := by
  unfold addNew
  rw [if_neg h]

/-- What is added to `xs` are the elements of `ys` beyond it, each at its first occurrence. -/
theorem addAll_eq (xs ys : List α) :
    addAll xs ys = xs ++ (ys.filter fun y => y ∉ xs).eraseDups := by
  induction ys generalizing xs with
  | nil => simp [addAll]
  | cons y ys ih =>
    rw [addAll_cons, ih]
    by_cases hy : y ∈ xs
    · rw [addNew_of_mem hy, List.filter_cons_of_neg (by simpa using hy)]
    · rw [addNew_of_notMem hy, List.filter_cons_of_pos (by simpa using hy), List.eraseDups_cons,
        List.filter_filter, List.append_assoc, List.singleton_append]
      congr 3
      apply List.filter_congr
      intro z _
      by_cases hz : z = y <;> simp [hz, hy]

theorem addAll_nil_eq (xs : List α) : addAll [] xs = xs.eraseDups := by
  simp [addAll_eq]

theorem addAll_eq_self {xs ys : List α} (h : ∀ y ∈ ys, y ∈ xs) : addAll xs ys = xs := by
  rw [addAll_eq, List.filter_eq_nil_iff.mpr (by simpa using h), List.eraseDups_nil,
    List.append_nil]

theorem nodup_eraseDups (xs : List α) : xs.eraseDups.Nodup := by
  rw [← addAll_nil_eq]
  exact nodup_addAll List.nodup_nil xs

theorem eraseDups_eq_nil_iff {xs : List α} : xs.eraseDups = [] ↔ xs = [] := by
  cases xs with
  | nil => simp
  | cons x xs => simp [List.eraseDups_cons]

theorem eraseDups_eq_self {xs : List α} (h : xs.Nodup) : xs.eraseDups = xs := by
  induction xs with
  | nil => rfl
  | cons x xs ih =>
    obtain ⟨hx, hxs⟩ := List.nodup_cons.mp h
    rw [List.eraseDups_cons, List.filter_eq_self.mpr, ih hxs]
    intro y hy
    have : y ≠ x := fun e => hx (e ▸ hy)
    simpa using this

/-- Adding to a list without repeats is erasing the repeats of both lists together. -/
theorem addAll_eq_eraseDups {xs : List α} (h : xs.Nodup) (ys : List α) :
    addAll xs ys = (xs ++ ys).eraseDups := by
  rw [← addAll_nil_eq, addAll_append, addAll_nil_eq, eraseDups_eq_self h]

theorem eraseDups_concat (xs : List α) (x : α) :
    (xs ++ [x]).eraseDups = addNew xs.eraseDups x := by
  rw [← addAll_nil_eq, addAll_append, addAll_nil_eq]
  rfl

theorem addAll_eraseDups (xs ys : List α) : addAll xs ys.eraseDups = addAll xs ys := by
  induction ys using List.reverseRecOn with
  | nil => rfl
  | append_singleton ys y ih =>
    rw [addAll_append, eraseDups_concat]
    by_cases hy : y ∈ ys
    · rw [addNew_of_mem (List.mem_eraseDups.mpr hy), ih]
      exact (addNew_of_mem (mem_addAll.mpr (Or.inr hy))).symm
    · rw [addNew_of_notMem (fun h => hy (List.mem_eraseDups.mp h)), addAll_append, ih]

/-- Repeats may be erased inside the lists that are joined, too. -/
theorem eraseDups_flatMap_eraseDups (f : β → List α) (bs : List β) :
    (bs.flatMap fun b => (f b).eraseDups).eraseDups = (bs.flatMap f).eraseDups := by
  suffices h : ∀ xs, addAll xs (bs.flatMap fun b => (f b).eraseDups) = addAll xs (bs.flatMap f) by
    rw [← addAll_nil_eq, h, addAll_nil_eq]
  induction bs with
  | nil => intro xs; rfl
  | cons b bs ih =>
    intro xs
    rw [List.flatMap_cons, List.flatMap_cons, addAll_append, addAll_append, addAll_eraseDups, ih]

/-- A list that comes once for each of several elements counts once. -/
theorem eraseDups_flatMap_const (xs : List α) {bs : List β} (h : bs ≠ []) :
    (bs.flatMap fun _ => xs).eraseDups = xs.eraseDups := by
  obtain ⟨b, bs, rfl⟩ := List.exists_cons_of_ne_nil h
  rw [List.flatMap_cons, ← addAll_nil_eq, addAll_append, addAll_nil_eq]
  apply addAll_eq_self
  intro y hy
  obtain ⟨_, _, hy⟩ := List.mem_flatMap.mp hy
  exact List.mem_eraseDups.mpr hy

/-- An element that comes several times in a row counts once. -/
theorem eraseDups_flatMap_map_const (xs : List α) {bs : List β} (h : bs ≠ []) :
    (xs.flatMap fun x => bs.map fun _ => x).eraseDups = xs.eraseDups := by
  rw [← eraseDups_flatMap_eraseDups]
  have hrow : ∀ x : α, (bs.map fun _ => x).eraseDups = [x] := by
    intro x
    rw [List.map_eq_flatMap, eraseDups_flatMap_const [x] h,
      eraseDups_eq_self (by simp)]
  simp only [hrow, List.flatMap_singleton']

/-- What two lists have beyond a third: first what the first has, then what the second has beyond
    both. -/
theorem eraseDups_filter_append (seen xs ys : List α) :
    ((xs ++ ys).filter fun z => z ∉ seen).eraseDups =
      (xs.filter fun z => z ∉ seen).eraseDups ++
        (ys.filter fun z => z ∉ seen ++ xs).eraseDups := by
  rw [List.filter_append, List.eraseDups_append, List.removeAll, List.filter_filter]
  congr 2
  apply List.filter_congr
  intro z _
  by_cases hz : z ∈ seen <;> simp [hz]

theorem filter_addNew (p : α → Bool) (xs : List α) (x : α) :
    (addNew xs x).filter p = if p x then addNew (xs.filter p) x else xs.filter p := by
  unfold addNew
  by_cases hx : x ∈ xs <;> by_cases hp : p x <;> simp [hx, hp, List.filter_append]

/-- Choosing elements and erasing repeats may be done in either order. -/
theorem filter_eraseDups (p : α → Bool) (xs : List α) :
    xs.eraseDups.filter p = (xs.filter p).eraseDups := by
  induction xs using List.reverseRecOn with
  | nil => rfl
  | append_singleton xs x ih =>
    rw [eraseDups_concat, filter_addNew, List.filter_append, ih]
    by_cases hp : p x
    · rw [if_pos hp, List.filter_cons_of_pos hp, List.filter_nil, eraseDups_concat]
    · rw [if_neg hp, List.filter_cons_of_neg hp, List.filter_nil, List.append_nil]

/-- Repeats may be erased before a map, too. -/
theorem eraseDups_map_eraseDups [DecidableEq β] (f : α → β) (xs : List α) :
    (xs.eraseDups.map f).eraseDups = (xs.map f).eraseDups := by
  induction xs using List.reverseRecOn with
  | nil => rfl
  | append_singleton xs x ih =>
    rw [eraseDups_concat, List.map_append, List.map_singleton, eraseDups_concat, ← ih]
    by_cases hx : x ∈ xs.eraseDups
    · rw [addNew_of_mem hx, addNew_of_mem (List.mem_eraseDups.mpr (List.mem_map_of_mem hx))]
    · rw [addNew_of_notMem hx, List.map_append, List.map_singleton, eraseDups_concat]

/-- An injective map keeps repeats apart. -/
theorem eraseDups_map [DecidableEq β] {f : α → β} (hf : Function.Injective f) (xs : List α) :
    (xs.map f).eraseDups = xs.eraseDups.map f := by
  rw [← eraseDups_map_eraseDups, eraseDups_eq_self ((nodup_eraseDups xs).map hf)]

end Add

/-! ## One change -/

section Change

variable {p : α → Bool} {new : α} {f : α → α} {xs : List α}

/-- Nothing changes where the first element that has the property is as the change makes it. -/
theorem updateFirst_eq_self {x : α} (hx : xs.find? p = some x) (hf : f x = x) :
    updateFirst p new f xs = xs := by
  induction xs with
  | nil => cases hx
  | cons y xs ih =>
    rw [updateFirst]
    by_cases hy : p y
    · rw [List.find?_cons_of_pos hy] at hx
      rw [if_pos hy, Option.some.inj hx, hf]
    · rw [List.find?_cons_of_neg hy] at hx
      rw [if_neg hy, ih hx]

/-- Two changes in a row are one, if the first does not take the property away. -/
theorem updateFirst_updateFirst (hf : ∀ x, p x → p (f x)) (hnew : p (f new)) (new' : α)
    (g : α → α) :
    updateFirst p new' g (updateFirst p new f xs) = updateFirst p new (fun x => g (f x)) xs := by
  induction xs with
  | nil => exact if_pos hnew
  | cons x xs ih =>
    rw [updateFirst, updateFirst]
    by_cases hx : p x
    · rw [if_pos hx, if_pos hx, updateFirst, if_pos (hf x hx)]
    · rw [if_neg hx, if_neg hx, updateFirst, if_neg hx, ih]

/-- An element without the property is where it was, if the change does not take the property
    away. -/
theorem getElem?_updateFirst_eq_some_iff (hf : ∀ x, p x → p (f x)) (hnew : p (f new)) {y : α}
    (hy : ¬ p y) (i : Nat) : (updateFirst p new f xs)[i]? = some y ↔ xs[i]? = some y := by
  have hne : ∀ x, p x → x ≠ y := fun x hx e => hy (e ▸ hx)
  induction xs generalizing i with
  | nil =>
    cases i with
    | zero => simpa [updateFirst] using hne _ hnew
    | succ i => simp [updateFirst]
  | cons x xs ih =>
    rw [updateFirst]
    by_cases hx : p x
    · rw [if_pos hx]
      cases i with
      | zero => simp [hne x hx, hne _ (hf x hx)]
      | succ i => rfl
    · rw [if_neg hx]
      cases i with
      | zero => rfl
      | succ i => exact ih i

/-- A search for something else finds what it found, if the change does not take the property
    away. -/
theorem find?_updateFirst (hf : ∀ x, p x → p (f x)) (hnew : p (f new)) {q : α → Bool}
    (hq : ∀ x, p x → ¬ q x) : (updateFirst p new f xs).find? q = xs.find? q := by
  induction xs with
  | nil => exact List.find?_cons_of_neg (hq _ hnew)
  | cons x xs ih =>
    rw [updateFirst]
    by_cases hx : p x
    · rw [if_pos hx, List.find?_cons_of_neg (hq _ (hf x hx)), List.find?_cons_of_neg (hq x hx)]
    · rw [if_neg hx, List.find?_cons, List.find?_cons, ih]

end Change

/-! ## Entries of keys -/

section Entries

variable [DecidableEq κ] {key : α → κ}

/-- Among entries that are made from their keys, the search for a key finds its entry. -/
theorem find?_map_key {val : κ → α} (hval : ∀ x, key (val x) = x) (ks : List κ) (x : κ) :
    (ks.map val).find? (fun a => key a = x) = if x ∈ ks then some (val x) else none := by
  induction ks with
  | nil => rfl
  | cons y ks ih =>
    rw [List.map_cons, List.find?_cons, hval, ih]
    by_cases h : y = x
    · simp [h]
    · simp [h, Ne.symm h]

theorem updateFirst_map_of_mem {val : κ → α} (hval : ∀ x, key (val x) = x) {ks : List κ}
    (hks : ks.Nodup) {x : κ} (hx : x ∈ ks) (a : α) (f : α → α) :
    updateFirst (fun a => key a = x) a f (ks.map val) =
      ks.map fun y => if y = x then f (val y) else val y := by
  induction ks with
  | nil => cases hx
  | cons y ks ih =>
    obtain ⟨hy, hks⟩ := List.nodup_cons.mp hks
    rw [List.map_cons, List.map_cons, updateFirst]
    by_cases h : y = x
    · subst h
      rw [if_pos (by simpa using hval y), if_pos rfl]
      congr 1
      apply List.map_congr_left
      intro z hz
      rw [if_neg (by rintro rfl; exact hy hz)]
    · have hx : x ∈ ks := (List.mem_cons.mp hx).resolve_left (fun e => h e.symm)
      rw [if_neg (by simpa [hval] using h), if_neg h, ih hks hx]

theorem updateFirst_map_of_notMem {val : κ → α} (hval : ∀ x, key (val x) = x) {ks : List κ}
    {x : κ} (hx : x ∉ ks) (a : α) (f : α → α) :
    updateFirst (fun a => key a = x) a f (ks.map val) = ks.map val ++ [f a] := by
  induction ks with
  | nil => rfl
  | cons y ks ih =>
    have hy : ¬ y = x := by rintro rfl; exact hx List.mem_cons_self
    have hks : x ∉ ks := fun h => hx (List.mem_cons_of_mem y h)
    rw [List.map_cons, updateFirst, if_neg (by simpa [hval] using hy), ih hks]
    rfl

/-- A loop that changes the entry of a key leaves one entry for each key, and an entry is what the
    operations on its key alone make of a new one. -/
theorem foldl_updateFirst {ω : Type} (key : α → κ) (new : κ → α) (target : ω → κ)
    (change : ω → α → α) (hnew : ∀ x, key (new x) = x)
    (hchange : ∀ o a, key (change o a) = key a) (os : List ω) :
    os.foldl (fun as o => updateFirst (fun a => key a = target o) (new (target o)) (change o) as)
        [] =
      (os.map target).eraseDups.map fun x =>
        (os.filter fun o => target o = x).foldl (fun a o => change o a) (new x) := by
  have hval : ∀ (os : List ω) x,
      key ((os.filter fun o => target o = x).foldl (fun a o => change o a) (new x)) = x := by
    intro os x
    have hfold : ∀ (os : List ω) a, key (os.foldl (fun a o => change o a) a) = key a := by
      intro os
      induction os with
      | nil => intro a; rfl
      | cons o os ih => intro a; rw [List.foldl_cons, ih, hchange]
    rw [hfold, hnew]
  induction os using List.reverseRecOn with
  | nil => rfl
  | append_singleton os o ih =>
    rw [List.foldl_append, List.foldl_cons, List.foldl_nil, ih, List.map_append,
      List.map_singleton, eraseDups_concat]
    by_cases ho : target o ∈ (os.map target).eraseDups
    · rw [updateFirst_map_of_mem (hval os) (nodup_eraseDups _) ho, addNew_of_mem ho]
      apply List.map_congr_left
      intro y _
      by_cases hy : y = target o
      · simp [hy, List.filter_append, List.foldl_append]
      · simp [hy, List.filter_append, Ne.symm hy]
    · rw [updateFirst_map_of_notMem (hval os) ho, addNew_of_notMem ho, List.map_append,
        List.map_singleton]
      congr 1
      · apply List.map_congr_left
        intro y hy
        have : target o ≠ y := fun e => ho (e ▸ hy)
        simp [List.filter_append, this]
      · -- no operation before has this key, so the new entry sees only the last one
        have : os.filter (fun o' => target o' = target o) = [] := by
          rw [List.filter_eq_nil_iff]
          intro o' ho' h
          exact ho (List.mem_eraseDups.mpr (List.mem_map.mpr ⟨o', ho', by simpa using h⟩))
        simp [List.filter_append, this]

end Entries

end AccessPolicy
