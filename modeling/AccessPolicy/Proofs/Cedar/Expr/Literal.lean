import AccessPolicy.Cedar.Expr.Json
import AccessPolicy.Proofs.Fields
import AccessPolicy.Proofs.Outcome

/-!
# Constants as documents

A constant is written and read back unchanged, unless a record in it has one of the two keys that
mark entities and constants of extension types. Reading never makes such a record.

* `Literal.Canonical`: the constants that reading makes.
* `ofJson_toJson`: canonical constants are read back.
* `canonical_of_ofJson`: constants that were read are canonical.
-/

namespace AccessPolicy.Cedar

open Outcome

/-! ## Numbers -/

/-- A signed 64-bit word is read back from its integer. -/
theorem int64?_toInt (n : Int64) : (Json.Number.int n.toInt).int64? = some n := by
  have hmin : -2 ^ 63 ≤ n.toInt := n.le_toInt
  have hmax : n.toInt < 2 ^ 63 := n.toInt_lt
  have hword : (Decimal.pow2 63 : Int) = 2 ^ 63 := by decide
  unfold Json.Number.int64?
  dsimp only
  rw [hword, if_pos ⟨hmin, hmax⟩, Int64.ofInt_toInt]

namespace Literal

/-! ## Canonical constants -/

/-- The keys that mark entities and constants of extension types. -/
def reservedKeys : List String := ["__entity", "__extn"]

mutual

/-- No record of a constant has a reserved key. -/
def unreserved : Literal → Bool
  | .set items => unreservedItems items
  | .record fields => unreservedFields fields
  | _ => true

/-- No record of the items has a reserved key. -/
def unreservedItems : List Literal → Bool
  | [] => true
  | l :: rest => unreserved l && unreservedItems rest

/-- No field and no record in the values of fields has a reserved key. -/
def unreservedFields : List (String × Literal) → Bool
  | [] => true
  | (k, l) :: rest => !reservedKeys.contains k && unreserved l && unreservedFields rest

end

/-- Records have their keys in order, and none of these is reserved. -/
structure Canonical (l : Literal) : Prop where
  sorted : l.sorted
  unreserved : l.unreserved

theorem sortedItems_iff {items : List Literal} :
    sortedItems items ↔ ∀ l ∈ items, l.sorted := by
  induction items with
  | nil => simp [sortedItems]
  | cons l items ih => simp [sortedItems, ih]

theorem unreservedItems_iff {items : List Literal} :
    unreservedItems items ↔ ∀ l ∈ items, l.unreserved := by
  induction items with
  | nil => simp [unreservedItems]
  | cons l items ih => simp [unreservedItems, ih]

theorem sortedFields_iff {fields : List (String × Literal)} :
    sortedFields fields ↔ ∀ f ∈ fields, f.2.sorted := by
  induction fields with
  | nil => simp [sortedFields]
  | cons f fields ih => simp [sortedFields, ih]

theorem unreservedFields_iff {fields : List (String × Literal)} :
    unreservedFields fields ↔ ∀ f ∈ fields, f.1 ∉ reservedKeys ∧ f.2.unreserved := by
  induction fields with
  | nil => simp [unreservedFields]
  | cons f fields ih => simp [unreservedFields, ih]

theorem canonical_set_iff {items : List Literal} :
    Canonical (.set items) ↔ ∀ l ∈ items, Canonical l := by
  constructor
  · rintro ⟨hs, hu⟩ l hl
    exact ⟨sortedItems_iff.mp hs l hl, unreservedItems_iff.mp hu l hl⟩
  · intro h
    exact ⟨sortedItems_iff.mpr fun l hl => (h l hl).sorted,
      unreservedItems_iff.mpr fun l hl => (h l hl).unreserved⟩

theorem canonical_record_iff {fields : List (String × Literal)} :
    Canonical (.record fields) ↔
      Fields.ascending (fields.map Prod.fst) ∧
        ∀ f ∈ fields, f.1 ∉ reservedKeys ∧ Canonical f.2 := by
  constructor
  · rintro ⟨hs, hu⟩
    obtain ⟨hascending, hs⟩ := Bool.and_eq_true_iff.mp hs
    refine ⟨hascending, fun f hf => ?_⟩
    obtain ⟨hkey, hu⟩ := unreservedFields_iff.mp hu f hf
    exact ⟨hkey, sortedFields_iff.mp hs f hf, hu⟩
  · rintro ⟨hascending, h⟩
    refine ⟨Bool.and_eq_true_iff.mpr ⟨hascending, ?_⟩, ?_⟩
    · exact sortedFields_iff.mpr fun f hf => (h f hf).2.sorted
    · exact unreservedFields_iff.mpr fun f hf => ⟨(h f hf).1, (h f hf).2.unreserved⟩

/-! ## Reading what was written -/

theorem keys_fieldsToJson (fields : List (String × Literal)) :
    (fieldsToJson fields).map Prod.fst = fields.map Prod.fst := by
  induction fields with
  | nil => rfl
  | cons f fields ih =>
    obtain ⟨k, l⟩ := f
    unfold fieldsToJson
    rw [List.map_cons, List.map_cons, ih]

mutual

theorem ofJson_toJson : ∀ l : Literal, l.Canonical → ofJson l.toJson = .ok l
  | .bool b, _ => rfl
  | .long n, _ => by
    unfold toJson Json.int
    unfold ofJson
    rw [int64?_toInt]
  | .string s, _ => rfl
  | .entity e, _ => rfl
  | .set items, h => by
    unfold toJson
    unfold ofJson
    rw [itemsOfJson_itemsToJson items (canonical_set_iff.mp h)]
    rfl
  | .record fields, h => by
    obtain ⟨hascending, hfields⟩ := canonical_record_iff.mp h
    have hkey : ∀ key ∈ reservedKeys, (fieldsToJson fields).lookup key = none := by
      intro key hkey
      rw [Fields.lookup_eq_none_iff, keys_fieldsToJson, List.mem_map]
      rintro ⟨f, hf, rfl⟩
      exact (hfields f hf).1 hkey
    unfold toJson
    unfold ofJson
    rw [hkey "__entity" (by decide), hkey "__extn" (by decide),
      fieldsOfJson_fieldsToJson fields fun f hf => (hfields f hf).2]
    change Except.ok (Literal.record (Fields.ofList fields)) = _
    rw [Fields.ofList_eq_self hascending]
  | .decimal s, _ => rfl
  | .ip s, _ => rfl

theorem itemsOfJson_itemsToJson : ∀ items : List Literal, (∀ l ∈ items, l.Canonical) →
    itemsOfJson (itemsToJson items) = .ok items
  | [], _ => rfl
  | l :: rest, h => by
    unfold itemsToJson itemsOfJson
    rw [ofJson_toJson l (h l List.mem_cons_self),
      itemsOfJson_itemsToJson rest fun m hm => h m (List.mem_cons_of_mem l hm)]
    rfl

theorem fieldsOfJson_fieldsToJson : ∀ fields : List (String × Literal),
    (∀ f ∈ fields, f.2.Canonical) → fieldsOfJson (fieldsToJson fields) = .ok fields
  | [], _ => rfl
  | (k, l) :: rest, h => by
    unfold fieldsToJson fieldsOfJson
    rw [ofJson_toJson l (h (k, l) List.mem_cons_self),
      fieldsOfJson_fieldsToJson rest fun f hf => h f (List.mem_cons_of_mem (k, l) hf)]
    rfl

end

/-! ## What was read -/

theorem canonical_of_ofExtension {j : Json} {l : Literal} (h : ofExtension j = .ok l) :
    l.Canonical := by
  unfold ofExtension at h
  split at h
  · cases h
    exact ⟨rfl, rfl⟩
  · cases h
    exact ⟨rfl, rfl⟩
  · cases h

mutual

theorem canonical_of_ofJson : ∀ (j : Json) (l : Literal), ofJson j = .ok l → l.Canonical
  | .null, l, h => by cases h
  | .bool b, l, h => by
    cases h
    exact ⟨rfl, rfl⟩
  | .number n, l, h => by
    unfold ofJson at h
    split at h
    · cases h
      exact ⟨rfl, rfl⟩
    · cases h
  | .string s, l, h => by
    cases h
    exact ⟨rfl, rfl⟩
  | .array items, l, h => by
    unfold ofJson at h
    obtain ⟨ls, hls, rfl⟩ := map_eq_ok_iff.mp h
    exact canonical_set_iff.mpr (canonical_of_itemsOfJson items ls hls)
  | .object fields, l, h => by
    unfold ofJson at h
    split at h
    · obtain ⟨e, -, rfl⟩ := map_eq_ok_iff.mp h
      exact ⟨rfl, rfl⟩
    · exact canonical_of_ofExtension h
    · rename_i hentity hextn
      obtain ⟨fs, hfs, rfl⟩ := map_eq_ok_iff.mp h
      refine canonical_record_iff.mpr ⟨Fields.ascending_ofList fs, fun f hf => ?_⟩
      obtain ⟨hkey, hcanonical⟩ :=
        canonical_of_fieldsOfJson fields fs hfs f (Fields.mem_of_mem_ofList hf)
      refine ⟨fun hreserved => ?_, hcanonical⟩
      rcases List.mem_pair.mp hreserved with hname | hname
      · rw [hname] at hkey
        exact Fields.lookup_eq_none_iff.mp hentity hkey
      · rw [hname] at hkey
        exact Fields.lookup_eq_none_iff.mp hextn hkey

theorem canonical_of_itemsOfJson : ∀ (js : List Json) (ls : List Literal),
    itemsOfJson js = .ok ls → ∀ l ∈ ls, l.Canonical
  | [], ls, h => by
    cases h
    simp
  | j :: rest, ls, h => by
    unfold itemsOfJson at h
    simp only [bind_eq_ok_iff, pure_eq_ok_iff] at h
    obtain ⟨l, hl, others, hothers, rfl⟩ := h
    rw [List.forall_mem_cons]
    exact ⟨canonical_of_ofJson j l hl, canonical_of_itemsOfJson rest others hothers⟩

theorem canonical_of_fieldsOfJson : ∀ (fields : List (String × Json))
    (fs : List (String × Literal)), fieldsOfJson fields = .ok fs →
    ∀ f ∈ fs, f.1 ∈ fields.map Prod.fst ∧ f.2.Canonical
  | [], fs, h => by
    cases h
    simp
  | (k, j) :: rest, fs, h => by
    unfold fieldsOfJson at h
    simp only [bind_eq_ok_iff, pure_eq_ok_iff] at h
    obtain ⟨l, hl, others, hothers, rfl⟩ := h
    rw [List.forall_mem_cons]
    refine ⟨⟨List.mem_cons_self, canonical_of_ofJson j l hl⟩, fun f hf => ?_⟩
    obtain ⟨hkey, hcanonical⟩ := canonical_of_fieldsOfJson rest others hothers f hf
    exact ⟨List.mem_cons_of_mem k hkey, hcanonical⟩

end

end Literal

end AccessPolicy.Cedar
