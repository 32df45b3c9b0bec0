/-!
# Fields

Named values. A list of fields keeps them in the order in which their keys first came (`set`) or in
the order of their keys (`insert`); in both a key occurs once, and a later value takes the place of
an earlier one.

* `lookup_set_self`, `lookup_set_ne`: a field reads as what was last written to it.
* `setAll`: several fields one after the other.
* `ofList`: fields in the order of their keys.
* `ascending`: keys in order, none of them twice.
-/

namespace AccessPolicy.Fields

variable {α : Type}

/-! ## In order of coming -/

/-- Gives a key a value. A key that is there keeps its place, a new one goes to the end. -/
def set (key : String) (value : α) : List (String × α) → List (String × α)
  | [] => [(key, value)]
  | (k, v) :: rest => if k = key then (k, value) :: rest else (k, v) :: set key value rest

theorem lookup_set_self (key : String) (value : α) (fields : List (String × α)) :
    (set key value fields).lookup key = some value := by
  induction fields with
  | nil => simp [set]
  | cons f rest ih =>
    obtain ⟨k, v⟩ := f
    by_cases h : k = key
    · simp [set, h]
    · have h' : (key == k) = false := by simpa using fun e => h e.symm
      simp [set, h, List.lookup_cons, h', ih]

theorem lookup_set_ne {key other : String} (h : other ≠ key) (value : α)
    (fields : List (String × α)) : (set key value fields).lookup other = fields.lookup other := by
  have hk : (other == key) = false := by simpa using h
  induction fields with
  | nil => simp [set, List.lookup_cons, hk]
  | cons f rest ih =>
    obtain ⟨k, v⟩ := f
    by_cases e : k = key
    · subst e; simp [set, List.lookup_cons, hk]
    · simp only [set, e, if_false, List.lookup_cons, ih]

/-- Gives keys values in order. -/
def setAll (fields more : List (String × α)) : List (String × α) :=
  more.foldl (fun done f => set f.1 f.2 done) fields

/-! ## In order of keys -/

/-- Puts a field in its place among fields in order. -/
def insert (key : String) (value : α) : List (String × α) → List (String × α)
  | [] => [(key, value)]
  | (k, v) :: rest =>
    if key < k then (key, value) :: (k, v) :: rest
    else if k = key then (key, value) :: rest
    else (k, v) :: insert key value rest

/-- Fields in ascending order of keys, the last one of each key. -/
def ofList (fields : List (String × α)) : List (String × α) :=
  fields.foldl (fun done f => insert f.1 f.2 done) []

/-- Keys ascend, so none occurs twice. -/
def ascending : List String → Bool
  | [] => true
  | [_] => true
  | a :: b :: rest => a < b && ascending (b :: rest)

end AccessPolicy.Fields
