import AccessPolicy.Fields
import AccessPolicy.Proofs.Distinct
import Mathlib.Data.List.Induction
import Mathlib.Data.String.Basic

/-!
# Fields

`Fields.setAll` gives keys values in order: each key keeps the place where it first came and has the
value that came last. `Fields.ofList` puts fields into ascending order of keys. It leaves fields
alone that are in this order, and it brings in nothing new.

* `keys_setAll`, `lookup_setAll`: the keys in order and the value of each.
* `setAll_eq_append`: fields with distinct keys stay as they are.
* `ascending_iff`: keys in order.
* `ascending_ofList`, `mem_of_mem_ofList`: the result is in order and comes from the fields given.
* `ofList_eq_self`: fields in order stay as they are.
-/

namespace AccessPolicy.Fields

variable {α : Type}

theorem lookup_eq_none_iff {key : String} {fields : List (String × α)} :
    fields.lookup key = none ↔ key ∉ fields.map Prod.fst := by
  rw [List.lookup_eq_none_iff, List.mem_map]
  constructor
  · rintro h ⟨f, hf, rfl⟩
    have hne := h f hf
    simp at hne
  · intro h f hf
    have hne : key ≠ f.1 := fun e => h ⟨f, hf, e.symm⟩
    simpa using hne

theorem mem_of_lookup_eq_some {key : String} {value : α} {fields : List (String × α)}
    (h : fields.lookup key = some value) : (key, value) ∈ fields := by
  obtain ⟨before, after, rfl, -⟩ := List.lookup_eq_some_iff.mp h
  exact List.mem_append_right before List.mem_cons_self

/-! ## In order of coming -/

theorem set_eq_append {key : String} {value : α} {fields : List (String × α)}
    (h : ∀ f ∈ fields, f.1 ≠ key) : set key value fields = fields ++ [(key, value)] := by
  induction fields with
  | nil => rfl
  | cons f rest ih =>
    obtain ⟨k, v⟩ := f
    have hk : k ≠ key := h (k, v) List.mem_cons_self
    rw [set, if_neg hk, ih fun f hf => h f (List.mem_cons_of_mem _ hf)]
    rfl

theorem keys_set (key : String) (value : α) (fields : List (String × α)) :
    (set key value fields).map Prod.fst = addNew (fields.map Prod.fst) key := by
  induction fields with
  | nil => rfl
  | cons f rest ih =>
    obtain ⟨k, v⟩ := f
    by_cases hk : k = key
    · simp [set, addNew, hk]
    · rw [set, if_neg hk, List.map_cons, ih, List.map_cons]
      by_cases hrest : key ∈ rest.map Prod.fst
      · rw [addNew_of_mem hrest, addNew_of_mem (List.mem_cons_of_mem _ hrest)]
      · have hall : key ∉ k :: rest.map Prod.fst := by simp [Ne.symm hk, hrest]
        rw [addNew_of_notMem hrest, addNew_of_notMem hall]
        rfl

theorem mem_of_mem_set {key : String} {value : α} {fields : List (String × α)} {f : String × α}
    (h : f ∈ set key value fields) : f = (key, value) ∨ f ∈ fields := by
  induction fields with
  | nil => exact Or.inl (List.mem_singleton.mp h)
  | cons g rest ih =>
    obtain ⟨k, v⟩ := g
    unfold set at h
    split_ifs at h with hk
    · subst hk
      exact (List.mem_cons.mp h).imp_right (List.mem_cons_of_mem _)
    · rcases List.mem_cons.mp h with rfl | h
      · exact Or.inr List.mem_cons_self
      · exact (ih h).imp_right (List.mem_cons_of_mem _)

theorem setAll_cons (fields : List (String × α)) (f : String × α) (more : List (String × α)) :
    setAll fields (f :: more) = setAll (set f.1 f.2 fields) more := rfl

theorem keys_setAll (fields more : List (String × α)) :
    (setAll fields more).map Prod.fst = addAll (fields.map Prod.fst) (more.map Prod.fst) := by
  induction more generalizing fields with
  | nil => rfl
  | cons f more ih =>
    rw [setAll_cons, ih, keys_set]
    rfl

/-- A key has the value that came last. -/
theorem lookup_setAll (fields more : List (String × α)) (key : String) :
    (setAll fields more).lookup key = (more.reverse.lookup key).or (fields.lookup key) := by
  induction more generalizing fields with
  | nil => rfl
  | cons f more ih =>
    rw [setAll_cons, ih, List.reverse_cons, List.lookup_append, Option.or_assoc]
    by_cases hk : key = f.1
    · rw [hk, lookup_set_self, List.lookup_cons_self, Option.some_or]
    · have hne : (key == f.1) = false := by simpa using hk
      rw [lookup_set_ne hk, List.lookup_cons, hne, List.lookup_nil, Option.none_or]

theorem ne_of_nodup_append {fields more : List (String × α)} {f : String × α}
    (h : ((fields ++ f :: more).map Prod.fst).Nodup) : ∀ g ∈ fields, g.1 ≠ f.1 := by
  intro g hg
  rw [List.map_append, List.nodup_append] at h
  exact h.2.2 g.1 (List.mem_map_of_mem hg) f.1 List.mem_cons_self

theorem setAll_eq_append {fields more : List (String × α)}
    (h : ((fields ++ more).map Prod.fst).Nodup) : setAll fields more = fields ++ more := by
  induction more generalizing fields with
  | nil => rw [List.append_nil]; rfl
  | cons f more ih =>
    rw [setAll_cons, set_eq_append (ne_of_nodup_append h)]
    have hsplit : fields ++ f :: more = (fields ++ [f]) ++ more := by simp
    rw [hsplit] at h ⊢
    exact ih h

theorem set_map {β : Type} (g : α → β) (key : String) (value : α) (fields : List (String × α)) :
    set key (g value) (fields.map fun f => (f.1, g f.2)) =
      (set key value fields).map fun f => (f.1, g f.2) := by
  induction fields with
  | nil => rfl
  | cons f rest ih =>
    obtain ⟨k, v⟩ := f
    by_cases hk : k = key
    · simp [set, hk]
    · simp [set, hk, ih]

theorem setAll_map {β : Type} (g : α → β) (fields more : List (String × α)) :
    setAll (fields.map fun f => (f.1, g f.2)) (more.map fun f => (f.1, g f.2)) =
      (setAll fields more).map fun f => (f.1, g f.2) := by
  induction more generalizing fields with
  | nil => rfl
  | cons f more ih =>
    rw [List.map_cons, setAll_cons, set_map g f.1 f.2, ih]
    rfl

/-! ## In order of keys -/

theorem ascending_iff {keys : List String} : ascending keys ↔ keys.Pairwise (· < ·) := by
  induction keys with
  | nil => simp [ascending]
  | cons a keys ih =>
    cases keys with
    | nil => simp [ascending]
    | cons b keys =>
      unfold ascending
      rw [Bool.and_eq_true, decide_eq_true_eq, ih]
      constructor
      · rintro ⟨hab, hkeys⟩
        refine List.pairwise_cons.mpr ⟨fun c hc => ?_, hkeys⟩
        rcases List.mem_cons.mp hc with rfl | hc
        · exact hab
        · exact String.lt_trans hab ((List.pairwise_cons.mp hkeys).1 c hc)
      · intro hkeys
        obtain ⟨ha, hkeys⟩ := List.pairwise_cons.mp hkeys
        exact ⟨ha b List.mem_cons_self, hkeys⟩

theorem nodup_of_ascending {keys : List String} (h : ascending keys) : keys.Nodup := by
  rw [ascending_iff] at h
  exact h.imp ne_of_lt

/-! ### One field -/

theorem mem_of_mem_insert {key : String} {value : α} {fields : List (String × α)} {f : String × α}
    (h : f ∈ insert key value fields) : f = (key, value) ∨ f ∈ fields := by
  induction fields with
  | nil => exact Or.inl (List.mem_singleton.mp h)
  | cons g rest ih =>
    obtain ⟨k, v⟩ := g
    unfold insert at h
    split_ifs at h
    · exact List.mem_cons.mp h
    · exact (List.mem_cons.mp h).imp_right (List.mem_cons_of_mem _)
    · rcases List.mem_cons.mp h with rfl | h
      · exact Or.inr List.mem_cons_self
      · exact (ih h).imp_right (List.mem_cons_of_mem _)

theorem pairwise_insert (key : String) (value : α) {fields : List (String × α)}
    (h : fields.Pairwise fun f g => f.1 < g.1) :
    (insert key value fields).Pairwise fun f g => f.1 < g.1 := by
  induction fields with
  | nil => exact List.pairwise_singleton _ _
  | cons g rest ih =>
    obtain ⟨k, v⟩ := g
    obtain ⟨hfirst, hrest⟩ := List.pairwise_cons.mp h
    unfold insert
    split_ifs with hlt heq
    · refine List.pairwise_cons.mpr ⟨fun f hf => ?_, h⟩
      rcases List.mem_cons.mp hf with rfl | hf
      · exact hlt
      · exact String.lt_trans hlt (hfirst f hf)
    · subst heq
      exact List.pairwise_cons.mpr ⟨hfirst, hrest⟩
    · have hgt : k < key := lt_of_le_of_ne (String.not_lt.mp hlt) heq
      refine List.pairwise_cons.mpr ⟨fun f hf => ?_, ih hrest⟩
      rcases mem_of_mem_insert hf with rfl | hf
      · exact hgt
      · exact hfirst f hf

/-- A field whose key is the greatest goes to the end. -/
theorem insert_eq_append {key : String} {value : α} {fields : List (String × α)}
    (h : ∀ f ∈ fields, f.1 < key) : insert key value fields = fields ++ [(key, value)] := by
  induction fields with
  | nil => rfl
  | cons g rest ih =>
    obtain ⟨k, v⟩ := g
    have hk : k < key := h (k, v) List.mem_cons_self
    unfold insert
    rw [if_neg (String.lt_asymm hk), if_neg (ne_of_lt hk),
      ih fun f hf => h f (List.mem_cons_of_mem _ hf)]
    rfl

/-! ### All fields -/

theorem ofList_concat (fields : List (String × α)) (f : String × α) :
    ofList (fields ++ [f]) = insert f.1 f.2 (ofList fields) := by
  unfold ofList
  rw [List.foldl_append]
  rfl

theorem mem_of_mem_ofList {fields : List (String × α)} {f : String × α} (h : f ∈ ofList fields) :
    f ∈ fields := by
  induction fields using List.reverseRecOn with
  | nil => cases h
  | append_singleton fields g ih =>
    rw [ofList_concat] at h
    rw [List.mem_append]
    rcases mem_of_mem_insert h with rfl | h
    · exact Or.inr List.mem_cons_self
    · exact Or.inl (ih h)

theorem ascending_ofList (fields : List (String × α)) :
    ascending ((ofList fields).map Prod.fst) := by
  rw [ascending_iff, List.pairwise_map]
  induction fields using List.reverseRecOn with
  | nil => exact List.Pairwise.nil
  | append_singleton fields g ih =>
    rw [ofList_concat]
    exact pairwise_insert g.1 g.2 ih

theorem ofList_eq_self {fields : List (String × α)} (h : ascending (fields.map Prod.fst)) :
    ofList fields = fields := by
  rw [ascending_iff, List.pairwise_map] at h
  induction fields using List.reverseRecOn with
  | nil => rfl
  | append_singleton fields g ih =>
    obtain ⟨hfields, -, hlast⟩ := List.pairwise_append.mp h
    rw [ofList_concat, ih hfields]
    exact insert_eq_append fun f hf => hlast f hf g List.mem_cons_self

end AccessPolicy.Fields
