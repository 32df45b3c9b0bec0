import AccessPolicy.Error
import Mathlib.Data.List.Forall2
import Mathlib.Data.List.Perm.Basic

/-!
# Outcomes of operations that may fail

When a sequence of operations succeeds, and with which result.

* `bind_eq_ok_iff`, `bind_eq_error_iff`, `map_eq_ok_iff`: two operations in a row.
* `mapM_eq_ok_iff`, `mapM_map_eq_ok`, `exists_of_mapM_eq_error`: one operation on every element of a
  list.
* `exists_mapM_perm`: the order of the elements only orders the results.
* `exists_of_mem_left`, `exists_of_mem_right`, `exists_forall₂`: elements and their results.
* `foldlM_bind_eq_ok_iff`: a loop that first converts each element and then takes it up succeeds
  like the two loops one after the other.
* `unlessFound`: the first element at fault decides, by `unlessFound_append` also over two
  operations in a row.
* `FailsWith`: the kinds of error with which an operation may fail, kept by operations in a row.
-/

namespace AccessPolicy.Outcome

variable {ε α β γ : Type}

@[simp]
theorem pure_eq_ok_iff {a b : α} : (pure a : Except ε α) = .ok b ↔ a = b := by
  rw [show (pure a : Except ε α) = .ok a from rfl, Except.ok.injEq]

@[simp]
theorem bind_eq_ok_iff {x : Except ε α} {f : α → Except ε β} {b : β} :
    x >>= f = .ok b ↔ ∃ a, x = .ok a ∧ f a = .ok b := by
  cases x with
  | error e => simp [bind, Except.bind]
  | ok a => simp [bind, Except.bind]

theorem bind_eq_error_iff {x : Except ε α} {f : α → Except ε β} {e : ε} :
    x >>= f = .error e ↔ x = .error e ∨ ∃ a, x = .ok a ∧ f a = .error e := by
  cases x with
  | error e => simp [bind, Except.bind]
  | ok a => simp [bind, Except.bind]

@[simp]
theorem map_eq_ok_iff {x : Except ε α} {f : α → β} {b : β} :
    x.map f = .ok b ↔ ∃ a, x = .ok a ∧ f a = b := by
  cases x with
  | error e => simp [Except.map]
  | ok a => simp [Except.map]

theorem exists_of_mem_left {R : α → β → Prop} {xs : List α} {ys : List β}
    (h : List.Forall₂ R xs ys) {x : α} (hx : x ∈ xs) : ∃ y ∈ ys, R x y := by
  induction h with
  | nil => cases hx
  | cons hxy _ ih =>
    rcases List.mem_cons.mp hx with rfl | hx
    · exact ⟨_, List.mem_cons_self, hxy⟩
    · obtain ⟨y, hy, hR⟩ := ih hx
      exact ⟨y, List.mem_cons_of_mem _ hy, hR⟩

theorem exists_of_mem_right {R : α → β → Prop} {xs : List α} {ys : List β}
    (h : List.Forall₂ R xs ys) {y : β} (hy : y ∈ ys) : ∃ x ∈ xs, R x y :=
  exists_of_mem_left h.flip hy

theorem exists_forall₂ {R : α → β → Prop} {xs : List α} (h : ∀ x ∈ xs, ∃ y, R x y) :
    ∃ ys, List.Forall₂ R xs ys := by
  induction xs with
  | nil => exact ⟨[], .nil⟩
  | cons x xs ih =>
    obtain ⟨⟨y, hy⟩, hxs⟩ := List.forall_mem_cons.mp h
    obtain ⟨ys, hys⟩ := ih hxs
    exact ⟨y :: ys, .cons hy hys⟩

theorem mapM_eq_ok_iff {f : α → Except ε β} {xs : List α} {ys : List β} :
    xs.mapM f = .ok ys ↔ List.Forall₂ (fun x y => f x = .ok y) xs ys := by
  induction xs generalizing ys with
  | nil =>
    rw [List.mapM_nil, pure_eq_ok_iff, List.forall₂_nil_left_iff]
    exact eq_comm
  | cons x xs ih =>
    rw [List.mapM_cons, List.forall₂_cons_left_iff]
    simp only [bind_eq_ok_iff, pure_eq_ok_iff, ih, eq_comm (b := ys)]
    constructor
    · rintro ⟨y, hy, rest, hrest, rfl⟩
      exact ⟨y, rest, hy, hrest, rfl⟩
    · rintro ⟨y, rest, hy, hrest, rfl⟩
      exact ⟨y, hy, rest, hrest, rfl⟩

/-- Elements that are read back one by one are read back together. -/
theorem mapM_map_eq_ok {write : α → β} {read : β → Except ε α} {xs : List α}
    (h : ∀ x ∈ xs, read (write x) = .ok x) : (xs.map write).mapM read = .ok xs := by
  rw [mapM_eq_ok_iff, List.forall₂_map_left_iff, List.forall₂_same]
  exact h

/-- Elements in another order have their results in this order. -/
theorem exists_mapM_perm {f : α → Except ε β} {xs xs' : List α} {ys : List β}
    (h : xs.Perm xs') (hys : xs.mapM f = .ok ys) :
    ∃ ys', xs'.mapM f = .ok ys' ∧ ys.Perm ys' := by
  obtain ⟨ys', hys', hperm⟩ := List.perm_comp_forall₂ h.symm (mapM_eq_ok_iff.mp hys)
  exact ⟨ys', mapM_eq_ok_iff.mpr hys', hperm.symm⟩

theorem exists_of_mapM_eq_error {f : α → Except ε β} {xs : List α} {e : ε}
    (h : xs.mapM f = .error e) : ∃ x ∈ xs, f x = .error e := by
  induction xs with
  | nil => cases h
  | cons x xs ih =>
    rw [List.mapM_cons, bind_eq_error_iff] at h
    rcases h with hx | ⟨y, -, h⟩
    · exact ⟨x, List.mem_cons_self, hx⟩
    · rcases bind_eq_error_iff.mp h with hxs | ⟨ys, -, hpure⟩
      · obtain ⟨x', hx', he⟩ := ih hxs
        exact ⟨x', List.mem_cons_of_mem x hx', he⟩
      · cases hpure

theorem foldlM_bind_eq_ok_iff {f : α → Except ε β} {g : γ → β → Except ε γ}
    {xs : List α} {init out : γ} :
    xs.foldlM (fun done x => f x >>= g done) init = .ok out ↔
      ∃ ys, xs.mapM f = .ok ys ∧ ys.foldlM g init = .ok out := by
  induction xs generalizing init with
  | nil => simp
  | cons x xs ih =>
    rw [List.foldlM_cons, List.mapM_cons]
    simp only [bind_eq_ok_iff, pure_eq_ok_iff, ih]
    constructor
    · rintro ⟨next, ⟨y, hy, hg⟩, ys, hys, hout⟩
      exact ⟨y :: ys, ⟨y, hy, ys, hys, rfl⟩, by rw [List.foldlM_cons, hg]; exact hout⟩
    · rintro ⟨_, ⟨y, hy, ys, hys, rfl⟩, hout⟩
      rw [List.foldlM_cons, bind_eq_ok_iff] at hout
      obtain ⟨next, hg, hout⟩ := hout
      exact ⟨next, ⟨y, hy, hg⟩, ys, hys, hout⟩

/-- The outcome of an operation on elements: the result, unless an element is at fault. -/
def unlessFound {ι : Type} (fault : ι → Bool) (error : ι → Error) (xs : List ι) (result : α) :
    Except Error α :=
  match xs.find? fault with
  | some x => .error (error x)
  | none => .ok result

/-- Two operations in a row succeed if no element of both is at fault, and otherwise fail at the
    first that is. -/
theorem unlessFound_append {ι : Type} (fault : ι → Bool) (error : ι → Error) (xs ys : List ι)
    (a : α) (b : β) (f : α → β → γ) :
    (unlessFound fault error xs a >>= fun a =>
        unlessFound fault error ys b >>= fun b => pure (f a b)) =
      unlessFound fault error (xs ++ ys) (f a b) := by
  unfold unlessFound
  rw [List.find?_append]
  cases xs.find? fault with
  | some x => rfl
  | none =>
    rw [Option.none_or]
    cases ys.find? fault with
    | some y => rfl
    | none => rfl

/-! ## Kinds of error -/

/-- If an operation fails, its error is of one of some kinds. -/
def FailsWith (kinds : List ErrorKind) (x : Except Error α) : Prop :=
  ∀ e, x = .error e → e.kind ∈ kinds

namespace FailsWith

variable {kinds : List ErrorKind} {x : Except Error α}

theorem ok {a : α} : FailsWith kinds (.ok a) := by
  intro e h
  cases h

theorem error {e : Error} (h : e.kind ∈ kinds) : FailsWith kinds (.error e : Except Error α) := by
  rintro _ ⟨⟩
  exact h

theorem mono {kinds' : List ErrorKind} (h : FailsWith kinds x) (hsub : kinds ⊆ kinds') :
    FailsWith kinds' x :=
  fun e he => hsub (h e he)

theorem bind {f : α → Except Error β} (hx : FailsWith kinds x) (hf : ∀ a, FailsWith kinds (f a)) :
    FailsWith kinds (x >>= f) := by
  intro e h
  rcases bind_eq_error_iff.mp h with h | ⟨a, -, h⟩
  · exact hx e h
  · exact hf a e h

theorem map {f : α → β} (h : FailsWith kinds x) : FailsWith kinds (x.map f) := by
  intro e he
  cases x with
  | error e' =>
    cases he
    exact h e rfl
  | ok a => cases he

theorem mapM {f : α → Except Error β} {xs : List α} (h : ∀ x ∈ xs, FailsWith kinds (f x)) :
    FailsWith kinds (xs.mapM f) := by
  intro e he
  obtain ⟨x, hx, he⟩ := exists_of_mapM_eq_error he
  exact h x hx e he

end FailsWith

end AccessPolicy.Outcome
