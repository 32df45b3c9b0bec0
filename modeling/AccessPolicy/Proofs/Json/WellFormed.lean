import AccessPolicy.Json.Reader
import AccessPolicy.Proofs.Fields

/-!
# Well-formed documents

In a document that was read no object holds a key twice, because a second value for a key takes the
place of the first. A document whose keys are distinct is that of its own tree, as long as it does
not have more levels than a reader admits.

* `WellFormed`: keys are distinct and numbers are of one kind; `KeysDistinct` and `Plain`.
* `keysDistinct_of_readBytes`: what was read has distinct keys.
* `depth`, `toJsonWithin_ofJson`: the levels of a document, and which trees are read as one.
-/

namespace AccessPolicy.Json

/-- An integer that fits a word, signed or unsigned. -/
def Number.IsWord : Number → Prop
  | .int n => -(Decimal.pow2 63 : Int) ≤ n ∧ n < Decimal.pow2 64
  | .float _ => False

/-- No object holds a key twice, and all numbers have a property. -/
inductive WellFormed (number : Number → Prop) : Json → Prop
  | null : WellFormed number .null
  | bool {b} : WellFormed number (.bool b)
  | number {n} : number n → WellFormed number (.number n)
  | string {s} : WellFormed number (.string s)
  | array {items} : (∀ j ∈ items, WellFormed number j) → WellFormed number (.array items)
  | object {fields} : (fields.map Prod.fst).Nodup →
    (∀ f ∈ fields, WellFormed number f.2) → WellFormed number (.object fields)

/-- No object holds a key twice. -/
def KeysDistinct (j : Json) : Prop := j.WellFormed fun _ => True

/-- No object holds a key twice, and all numbers are integers that fit a word. -/
def Plain (j : Json) : Prop := j.WellFormed Number.IsWord

theorem WellFormed.mono {P Q : Number → Prop} (h : ∀ n, P n → Q n) {j : Json}
    (hj : j.WellFormed P) : j.WellFormed Q := by
  induction hj with
  | null => exact .null
  | bool => exact .bool
  | number hn => exact .number (h _ hn)
  | string => exact .string
  | array _ ih => exact .array ih
  | object hkeys _ ih => exact .object hkeys ih

@[simp]
theorem plain_string (s : String) : (Json.string s).Plain := .string

theorem plain_array {items : List Json} (h : ∀ j ∈ items, j.Plain) : (Json.array items).Plain :=
  .array h

theorem plain_object {fields : List (String × Json)} (hkeys : (fields.map Prod.fst).Nodup)
    (h : ∀ f ∈ fields, f.2.Plain) : (Json.object fields).Plain :=
  .object hkeys h

theorem Plain.keysDistinct {j : Json} (h : j.Plain) : j.KeysDistinct :=
  h.mono fun _ _ => trivial

namespace WellFormed

variable {P : Number → Prop} {j : Json}

theorem of_field? (h : j.WellFormed P) {name : String} {value : Json}
    (hfield : j.field? name = some value) : value.WellFormed P := by
  cases h with
  | object _ hvalues => exact hvalues _ (Fields.mem_of_lookup_eq_some hfield)
  | _ => cases hfield

theorem nodup_keys {fields : List (String × Json)} (h : (Json.object fields).WellFormed P) :
    (fields.map Prod.fst).Nodup := by
  cases h with
  | object hkeys _ => exact hkeys

theorem of_mem_values {fields : List (String × Json)} (h : (Json.object fields).WellFormed P)
    {f : String × Json} (hf : f ∈ fields) : f.2.WellFormed P := by
  cases h with
  | object _ hvalues => exact hvalues f hf

theorem of_mem_items {items : List Json} (h : (Json.array items).WellFormed P)
    (hj : j ∈ items) : j.WellFormed P := by
  cases h with
  | array hitems => exact hitems j hj

end WellFormed

/-! ## What was read -/

namespace Syntax

mutual

theorem keysDistinct_of_toJsonWithin : ∀ (s : Syntax) (depth : Nat) (j : Json),
    s.toJsonWithin depth = some j → j.KeysDistinct
  | .null, _, _, h => by
    cases h
    exact .null
  | .bool _, _, _, h => by
    cases h
    exact .bool
  | .number n, _, _, h => by
    obtain ⟨x, -, rfl⟩ := Option.map_eq_some_iff.mp h
    exact .number trivial
  | .string s, _, _, h => by
    obtain ⟨x, -, rfl⟩ := Option.map_eq_some_iff.mp h
    exact .string
  | .array items, depth, j, h => by
    rw [toJsonWithin] at h
    split_ifs at h
    obtain ⟨js, hjs, rfl⟩ := Option.map_eq_some_iff.mp h
    exact .array (keysDistinct_of_itemsWithin items (depth - 1) js hjs)
  | .object fields, depth, j, h => by
    rw [toJsonWithin] at h
    split_ifs at h
    obtain ⟨fs, hfs, rfl⟩ := Option.map_eq_some_iff.mp h
    obtain ⟨hkeys, hvalues⟩ :=
      keysDistinct_of_fieldsWithin fields (depth - 1) [] fs hfs List.nodup_nil (by simp)
    exact .object hkeys hvalues

theorem keysDistinct_of_itemsWithin : ∀ (items : List Syntax) (depth : Nat) (js : List Json),
    itemsWithin depth items = some js → ∀ j ∈ js, j.KeysDistinct
  | [], _, js, h => by
    cases h
    simp
  | s :: rest, depth, js, h => by
    rw [itemsWithin] at h
    simp only [Option.bind_eq_bind, Option.bind_eq_some_iff, Option.some.injEq] at h
    obtain ⟨j, hj, js', hjs, rfl⟩ := h
    rw [List.forall_mem_cons]
    exact ⟨keysDistinct_of_toJsonWithin s depth j hj,
      keysDistinct_of_itemsWithin rest depth js' hjs⟩

theorem keysDistinct_of_fieldsWithin : ∀ (fields : List (Option String × Syntax)) (depth : Nat)
    (before fs : List (String × Json)), fieldsWithin depth before fields = some fs →
    (before.map Prod.fst).Nodup → (∀ f ∈ before, f.2.KeysDistinct) →
    (fs.map Prod.fst).Nodup ∧ ∀ f ∈ fs, f.2.KeysDistinct
  | [], _, before, fs, h, hkeys, hvalues => by
    cases h
    exact ⟨hkeys, hvalues⟩
  | (k, s) :: rest, depth, before, fs, h, hkeys, hvalues => by
    rw [fieldsWithin] at h
    simp only [Option.bind_eq_bind, Option.bind_eq_some_iff] at h
    obtain ⟨key, -, j, hj, hfs⟩ := h
    refine keysDistinct_of_fieldsWithin rest depth _ fs hfs ?_ ?_
    · rw [Fields.keys_set]
      exact nodup_addNew hkeys key
    · intro f hf
      rcases Fields.mem_of_mem_set hf with rfl | hf
      · exact keysDistinct_of_toJsonWithin s depth j hj
      · exact hvalues f hf

end

end Syntax

theorem keysDistinct_of_readBytes {bytes : List UInt8} {j : Json} (h : readBytes bytes = some j) :
    j.KeysDistinct := by
  obtain ⟨text, -, htext⟩ := Option.bind_eq_some_iff.mp h
  obtain ⟨s, -, hs⟩ := Option.bind_eq_some_iff.mp htext
  exact Syntax.keysDistinct_of_toJsonWithin s maxDepth j hs

/-! ## Trees of documents -/

mutual

/-- The levels of arrays and objects of a document. -/
def depth : Json → Nat
  | .array items => itemsDepth items + 1
  | .object fields => fieldsDepth fields + 1
  | _ => 0

/-- The levels of the deepest item. -/
def itemsDepth : List Json → Nat
  | [] => 0
  | j :: rest => max (depth j) (itemsDepth rest)

/-- The levels of the deepest value of a field. -/
def fieldsDepth : List (String × Json) → Nat
  | [] => 0
  | (_, j) :: rest => max (depth j) (fieldsDepth rest)

end

namespace Syntax

mutual

/-- The tree of a document. -/
def ofJson : Json → Syntax
  | .null => .null
  | .bool b => .bool b
  | .number n => .number (some n)
  | .string s => .string (some s)
  | .array items => .array (ofItems items)
  | .object fields => .object (ofFields fields)

/-- The trees of items. -/
def ofItems : List Json → List Syntax
  | [] => []
  | j :: rest => ofJson j :: ofItems rest

/-- The trees of fields. -/
def ofFields : List (String × Json) → List (Option String × Syntax)
  | [] => []
  | (k, j) :: rest => (some k, ofJson j) :: ofFields rest

end

mutual

/-- A document is read from its tree unless it has too many levels. -/
theorem toJsonWithin_ofJson : ∀ (j : Json) (depth : Nat), j.KeysDistinct →
    (ofJson j).toJsonWithin depth = if j.depth ≤ depth then some j else none
  | .null, _, _ => by simp [ofJson, toJsonWithin, Json.depth]
  | .bool _, _, _ => by simp [ofJson, toJsonWithin, Json.depth]
  | .number _, _, _ => by simp [ofJson, toJsonWithin, Json.depth]
  | .string _, _, _ => by simp [ofJson, toJsonWithin, Json.depth]
  | .array items, depth, h => by
    cases h with
    | array h =>
      rw [ofJson, toJsonWithin, itemsWithin_ofItems items (depth - 1) h, Json.depth]
      cases depth with
      | zero => rfl
      | succ depth => simp [apply_ite]
  | .object fields, depth, h => by
    cases h with
    | object hkeys hvalues =>
      rw [ofJson, toJsonWithin, fieldsWithin_ofFields fields (depth - 1) [] hkeys hvalues,
        Json.depth]
      cases depth with
      | zero => rfl
      | succ depth => simp [apply_ite]

theorem itemsWithin_ofItems : ∀ (items : List Json) (depth : Nat), (∀ j ∈ items, j.KeysDistinct) →
    itemsWithin depth (ofItems items) = if itemsDepth items ≤ depth then some items else none
  | [], _, _ => by simp [ofItems, itemsWithin, itemsDepth]
  | j :: rest, depth, h => by
    obtain ⟨hj, hrest⟩ := List.forall_mem_cons.mp h
    rw [ofItems, itemsWithin, toJsonWithin_ofJson j depth hj, itemsWithin_ofItems rest depth hrest,
      itemsDepth]
    by_cases hdepth : j.depth ≤ depth <;> by_cases hrest : itemsDepth rest ≤ depth <;>
      simp [hdepth, hrest]

theorem fieldsWithin_ofFields : ∀ (fields : List (String × Json)) (depth : Nat)
    (before : List (String × Json)), ((before ++ fields).map Prod.fst).Nodup →
    (∀ f ∈ fields, f.2.KeysDistinct) →
    fieldsWithin depth before (ofFields fields) =
      if fieldsDepth fields ≤ depth then some (before ++ fields) else none
  | [], _, before, _, _ => by simp [ofFields, fieldsWithin, fieldsDepth]
  | (k, j) :: rest, depth, before, hkeys, h => by
    obtain ⟨hj, hrest⟩ := List.forall_mem_cons.mp h
    have hset : Fields.set k j before = before ++ [(k, j)] :=
      Fields.set_eq_append (Fields.ne_of_nodup_append hkeys)
    have hsplit : before ++ (k, j) :: rest = (before ++ [(k, j)]) ++ rest := by simp
    rw [hsplit] at hkeys ⊢
    have hlater := fieldsWithin_ofFields rest depth (before ++ [(k, j)]) hkeys hrest
    rw [ofFields, fieldsWithin, toJsonWithin_ofJson j depth hj, fieldsDepth]
    by_cases hdepth : j.depth ≤ depth
    · simp [hdepth, hset, hlater]
    · simp [hdepth]

end

end Syntax

end AccessPolicy.Json
