import AccessPolicy.Json.Decode
import AccessPolicy.Proofs.Json.WellFormed
import AccessPolicy.Proofs.Outcome

/-!
# Documents of values

A document holds a value when it is read as it. A record is read from the fields that were written
for it: each of them takes the record one state further, and a field that was left out stands for
what the record holds anyway.

* `Holds`: a document with distinct keys and few levels that is read as a value.
* `holds_string`, `holds_bool`, `Holds.option`, `holds_list`: values without fields.
* `Decode.Record.Fills`: written fields take a record from one state to another.
* `Decode.Record.Fills.holds`: an object with the fields of a record holds it.
-/

namespace AccessPolicy.Json

open Outcome

variable {α β σ : Type}

/-! ## Levels -/

theorem itemsDepth_le {items : List Json} {n : Nat} (h : ∀ j ∈ items, j.depth ≤ n) :
    itemsDepth items ≤ n := by
  induction items with
  | nil => exact Nat.zero_le n
  | cons j items ih =>
    obtain ⟨hj, hitems⟩ := List.forall_mem_cons.mp h
    exact Nat.max_le.mpr ⟨hj, ih hitems⟩

theorem fieldsDepth_le {fields : List (String × Json)} {n : Nat}
    (h : ∀ f ∈ fields, f.2.depth ≤ n) : fieldsDepth fields ≤ n := by
  induction fields with
  | nil => exact Nat.zero_le n
  | cons f fields ih =>
    obtain ⟨hf, hfields⟩ := List.forall_mem_cons.mp h
    exact Nat.max_le.mpr ⟨hf, ih hfields⟩

/-! ## Values -/

/-- A document is read as a value, has no key twice and does not have more than some levels. -/
structure Holds (read : Json → Except Mismatch α) (levels : Nat) (j : Json) (a : α) : Prop where
  plain : j.Plain
  depth_le : j.depth ≤ levels
  read_eq : read j = .ok a

theorem Holds.mono {read : Json → Except Mismatch α} {m n : Nat} {j : Json} {a : α}
    (h : Holds read m j a) (hmn : m ≤ n) : Holds read n j a :=
  ⟨h.plain, h.depth_le.trans hmn, h.read_eq⟩

theorem holds_string (n : Nat) (s : String) : Holds Decode.string n (.string s) s :=
  ⟨plain_string s, Nat.zero_le n, rfl⟩

theorem holds_bool (n : Nat) (b : Bool) : Holds Decode.bool n (.bool b) b :=
  ⟨.bool, Nat.zero_le n, rfl⟩

theorem Holds.option {item : Json → Except Mismatch α} {n : Nat} {j : Json} {a : α}
    (h : Holds item n j a) (hj : j ≠ .null) : Holds (Decode.option item) n j (some a) := by
  refine ⟨h.plain, h.depth_le, ?_⟩
  unfold Decode.option
  split
  · exact absurd rfl hj
  · rw [h.read_eq]
    rfl

theorem holds_list {item : Json → Except Mismatch α} {write : α → Json} {n : Nat} {as : List α}
    (h : ∀ a ∈ as, Holds item n (write a) a) :
    Holds (Decode.list item) (n + 1) (.array (as.map write)) as where
  plain := plain_array (List.forall_mem_map.mpr fun a ha => (h a ha).plain)
  depth_le := Nat.succ_le_succ
    (itemsDepth_le (List.forall_mem_map.mpr fun a ha => (h a ha).depth_le))
  read_eq := mapM_map_eq_ok fun a ha => (h a ha).read_eq

/-! ## Records -/

namespace Decode.Record

/-- Fields under some of the names, in their order, take a record from one state to another. Their
    values have no key twice and do not have more than some levels. -/
structure Fills (r : Record σ α) (names : List String) (levels : Nat) (s : σ)
    (entries : List (String × Json)) (s' : σ) : Prop where
  keys : (entries.map Prod.fst).Sublist names
  plain : ∀ e ∈ entries, e.2.Plain
  depth_le : ∀ e ∈ entries, e.2.depth ≤ levels
  fold_eq : entries.foldlM (fun s e => r.set s e.1 e.2) s = .ok s'

variable {r : Record σ α} {n : Nat} {s s' s'' : σ} {name : String}

theorem Fills.append {names names' : List String} {entries entries' : List (String × Json)}
    (h : r.Fills names n s entries s') (h' : r.Fills names' n s' entries' s'') :
    r.Fills (names ++ names') n s (entries ++ entries') s'' where
  keys := by
    rw [List.map_append]
    exact h.keys.append h'.keys
  plain := List.forall_mem_append.mpr ⟨h.plain, h'.plain⟩
  depth_le := List.forall_mem_append.mpr ⟨h.depth_le, h'.depth_le⟩
  fold_eq := by
    rw [List.foldlM_append, bind_eq_ok_iff]
    exact ⟨s', h.fold_eq, h'.fold_eq⟩

/-- A field that is left out changes nothing. -/
theorem fills_nil (names : List String) : r.Fills names n s [] s :=
  ⟨List.nil_sublist names, by simp, by simp, rfl⟩

/-- A field whose document holds a value puts this value into the record. -/
theorem fills_field (r : Record σ α) (name : String) {read : Json → Except Mismatch β}
    (put : β → σ) {j : Json} {b : β} (hset : r.set s name j = (do return put (← read j)))
    (h : Holds read n j b) : r.Fills [name] n s [(name, j)] (put b) where
  keys := List.Sublist.refl _
  plain := by simpa using h.plain
  depth_le := by simpa using h.depth_le
  fold_eq := by
    rw [List.foldlM_cons, hset, h.read_eq]
    rfl

/-- A field that may be left out puts its value, if any, into a record that held none. -/
theorem fills_optionField (r : Record σ α) (name : String)
    {read : Json → Except Mismatch (Option β)} (put : Option β → σ) {toJson : β → Json}
    (hset : ∀ j, r.set (put none) name j = (do return put (← read j)))
    (h : ∀ b, Holds read n (toJson b) (some b)) (value : Option β) :
    r.Fills [name] n (put none) (optionField name toJson value) (put value) := by
  cases value with
  | none => exact fills_nil [name]
  | some b => exact fills_field r name put (hset (toJson b)) (h b)

/-- A text that may be left out. -/
theorem fills_optString (r : Record σ α) (name : String) (put : Option String → σ)
    (hset : ∀ j, r.set (put none) name j = (do return put (← Decode.option Decode.string j)))
    (value : Option String) :
    r.Fills [name] n (put none) (optionField name .string value) (put value) :=
  fills_optionField r name put hset (fun text => (holds_string n text).option (by simp)) value

/-- An object with the fields of a record holds the record. -/
theorem Fills.holds {entries : List (String × Json)} {a : α}
    (h : r.Fills r.fields n r.blank entries s) (hfields : r.fields.Nodup)
    (hfinish : r.finish s = .ok a) : Holds r.read (n + 1) (.object entries) a where
  plain := plain_object (h.keys.nodup hfields) h.plain
  depth_le := Nat.succ_le_succ (fieldsDepth_le h.depth_le)
  read_eq := by
    have hfill : r.fill entries = .ok s := h.fold_eq
    rw [read, bind_eq_ok_iff]
    exact ⟨s, hfill, by rw [hfinish]⟩

end Decode.Record

end AccessPolicy.Json
