/-!
# Lists of distinct elements

Lists that grow at the end and hold each element once, in the order in which the elements first
came.

* `addNew`, `addAll`: add an element, or those of a list, unless they are there.
* `mem_addNew`, `mem_addAll`: nothing is lost and nothing else comes in.
* `nodup_addNew`, `nodup_addAll`: no element comes in twice.
* `updateFirst`: changes the first element with a property, which is added if there is none.
-/

namespace AccessPolicy

variable {α : Type}

/-! ## Adding -/

section Add

variable [DecidableEq α]

/-- Adds an element at the end unless it is there. -/
def addNew (xs : List α) (x : α) : List α := if x ∈ xs then xs else xs ++ [x]

/-- Adds elements in order, each unless it is there. -/
def addAll (xs ys : List α) : List α := ys.foldl addNew xs

@[simp]
theorem mem_addNew {xs : List α} {x y : α} : y ∈ addNew xs x ↔ y ∈ xs ∨ y = x := by
  unfold addNew
  split
  · exact ⟨Or.inl, fun h => h.elim id fun e => e ▸ ‹x ∈ xs›⟩
  · simp

theorem nodup_addNew {xs : List α} (h : xs.Nodup) (x : α) : (addNew xs x).Nodup := by
  unfold addNew
  split
  · exact h
  · rename_i hx
    rw [List.nodup_append]
    refine ⟨h, by simp, fun a ha b hb e => ?_⟩
    rw [List.mem_singleton] at hb
    subst hb; subst e
    exact hx ha

@[simp]
theorem mem_addAll {xs ys : List α} {y : α} : y ∈ addAll xs ys ↔ y ∈ xs ∨ y ∈ ys := by
  induction ys generalizing xs with
  | nil => simp [addAll]
  | cons z ys ih =>
    rw [show addAll xs (z :: ys) = addAll (addNew xs z) ys from rfl, ih, mem_addNew, List.mem_cons,
      or_assoc]

theorem nodup_addAll {xs : List α} (h : xs.Nodup) (ys : List α) : (addAll xs ys).Nodup := by
  induction ys generalizing xs with
  | nil => exact h
  | cons z ys ih => exact ih (nodup_addNew h z)

end Add

/-! ## Changing -/

/-- Changes the first element that has a property, or changes and adds a new one at the end. -/
def updateFirst (p : α → Bool) (new : α) (f : α → α) : List α → List α
  | [] => [f new]
  | x :: xs => if p x then f x :: xs else x :: updateFirst p new f xs

end AccessPolicy
