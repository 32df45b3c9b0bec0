import AccessPolicy.Binding.Mapping
import AccessPolicy.Proofs.Distinct
import AccessPolicy.Proofs.Outcome

/-!
# Grants of policies

What policies grant, in closed form. Only the policies that role bindings can express count, and the
first of their included actions that has no role decides about an error.

* `rolesOf_eq`: the roles of actions.
* `grant?_eq`: what one policy grants.
* `grants_eq`: what policies grant.
-/

namespace AccessPolicy

open Outcome

/-! ## Policies that count -/

theorem Policy.unmappable?_ne_none_iff {p : Policy} :
    p.unmappable? ≠ none ↔ p.isWhollyExcluded = true ∨ p.denies = true ∨ p.resourceId = "" := by
  unfold unmappable?
  split_ifs <;> simp [*]

/-- The policies that role bindings can express. -/
def PolicySet.representable (ps : PolicySet) : PolicySet :=
  ps.filter fun p => p ∉ ps.unmappable

namespace PolicySet

theorem mem_unmappable_iff {ps : PolicySet} {p : Policy} :
    p ∈ ps.unmappable ↔ p ∈ ps ∧ p.unmappable? ≠ none := by
  unfold unmappable
  rw [List.mem_filter, Option.isSome_iff_ne_none]

theorem mem_representable_iff {ps : PolicySet} {p : Policy} :
    p ∈ ps.representable ↔ p ∈ ps ∧ p ∉ ps.unmappable := by
  unfold representable
  rw [List.mem_filter, decide_eq_true_eq]

theorem representable_eq (ps : PolicySet) :
    ps.representable = ps.filter fun p => p.unmappable?.isNone := by
  unfold representable unmappable
  apply List.filter_congr
  intro p hp
  cases h : p.unmappable? <;> simp [hp, h]

theorem representable_representable (ps : PolicySet) :
    representable ps.representable = ps.representable := by
  rw [representable_eq, representable_eq, List.filter_filter]
  simp only [Bool.and_self]

theorem resourceId_ne_of_mem_representable {ps : PolicySet} {p : Policy}
    (h : p ∈ ps.representable) : p.resourceId ≠ "" := by
  obtain ⟨hp, hmappable⟩ := mem_representable_iff.mp h
  intro hempty
  exact hmappable (mem_unmappable_iff.mpr
    ⟨hp, Policy.unmappable?_ne_none_iff.mpr (Or.inr (Or.inr hempty))⟩)

end PolicySet

namespace RoleTable

variable (t : RoleTable)

/-- The role of an action. -/
def roleOf? (a : Action) : Option String := t.role? a.identifier

/-- The first action of a list that has no role. -/
def unmapped? (as : List Action) : Option Action := as.find? fun a => (t.roleOf? a).isNone

/-- The roles of the actions of a list. -/
def roles (as : List Action) : List String := as.filterMap t.roleOf?

/-- The outcome of an operation on actions: the result, if all of them have roles. -/
def ifMapped {α : Type} (as : List Action) (result : α) : Except Error α :=
  match t.unmapped? as with
  | some a => .error (.unmappedAction a.identifier)
  | none => .ok result

variable {t}

theorem rolesOf_eq (roles : List String) (as : List Action) :
    t.rolesOf roles as = t.ifMapped as (addAll roles (t.roles as)) := by
  induction as generalizing roles with
  | nil => rfl
  | cons a as ih =>
    unfold rolesOf ifMapped unmapped? RoleTable.roles
    cases h : t.roleOf? a with
    | none =>
      have h' : t.role? a.identifier = none := h
      simp [h, h']
    | some role =>
      have h' : t.role? a.identifier = some role := h
      simp only [h', ih]
      unfold ifMapped unmapped? RoleTable.roles
      simp [h, addAll_cons]

/-- Actions that all have roles have none only if there are no actions. -/
theorem roles_eq_nil_iff {as : List Action} (h : t.unmapped? as = none) :
    t.roles as = [] ↔ as = [] := by
  unfold unmapped? at h
  rw [List.find?_eq_none] at h
  unfold roles
  rw [List.filterMap_eq_nil_iff, List.eq_nil_iff_forall_not_mem]
  constructor
  · intro hnone a ha
    exact h a ha (by rw [hnone a ha]; rfl)
  · exact fun hempty a ha => absurd ha (hempty a)

/-- Two operations in a row succeed if all actions of both have roles, and otherwise fail at the
    first that has none. -/
theorem ifMapped_append {α β γ : Type} (as bs : List Action) (x : α) (y : β) (f : α → β → γ) :
    (t.ifMapped as x >>= fun a => t.ifMapped bs y >>= fun b => pure (f a b)) =
      t.ifMapped (as ++ bs) (f x y) := by
  have hfound : ∀ {δ : Type} (cs : List Action) (z : δ), t.ifMapped cs z =
      unlessFound (fun a => (t.roleOf? a).isNone) (fun a => .unmappedAction a.identifier) cs z := by
    intro δ cs z
    unfold ifMapped unmapped? unlessFound
    cases cs.find? fun a => (t.roleOf? a).isNone <;> rfl
  simp only [hfound, unlessFound_append]

theorem ifMapped_eq_ok_iff {α : Type} {as : List Action} {x y : α} :
    t.ifMapped as x = .ok y ↔ t.unmapped? as = none ∧ y = x := by
  unfold ifMapped
  cases t.unmapped? as with
  | some a => simp
  | none => simp [eq_comm]

/-! ## Grants -/

variable (t)

/-- What a policy grants if role bindings can express it. -/
def grantOf (p : Policy) : Grant :=
  ⟨p.resourceId, (t.roles p.included).eraseDups, p.subject.members⟩

/-- What a policy grants if all its included actions have roles: nothing without an included
    action. -/
def grantOf? (p : Policy) : Option Grant := if p.included = [] then none else some (t.grantOf p)

variable {t}

theorem grant?_eq {p : Policy} (h : p.unmappable? = none) :
    t.grant? p = t.ifMapped p.included (t.grantOf? p) := by
  unfold grant? ifMapped
  rw [h, if_neg (by simp), rolesOf_eq, addAll_nil_eq]
  unfold ifMapped
  cases hunmapped : t.unmapped? p.included with
  | some a => rfl
  | none =>
    have hempty : (t.roles p.included).eraseDups.isEmpty = true ↔ p.included = [] := by
      rw [List.isEmpty_iff, eraseDups_eq_nil_iff, roles_eq_nil_iff hunmapped]
    simp only [grantOf?, ← hempty]
    rfl

theorem grant?_of_unmappable {p : Policy} (h : p.unmappable?.isSome) : t.grant? p = .ok none := by
  unfold grant?
  rw [if_pos h]

/-- What policies grant: each that counts its own grant. It fails at the first included action of
    one that counts that has no role. -/
theorem grants_eq (ps : PolicySet) :
    t.grants ps =
      t.ifMapped (ps.representable.flatMap Policy.included)
        (ps.representable.filterMap t.grantOf?) := by
  rw [PolicySet.representable_eq]
  induction ps with
  | nil => rfl
  | cons p ps ih =>
    unfold grants
    rw [ih]
    cases h : p.unmappable? with
    | some why =>
      rw [grant?_of_unmappable (by rw [h]; rfl), List.filter_cons_of_neg (by simp [h])]
      exact ifMapped_append [] _ none _ fun g gs => Option.toList g ++ gs
    | none =>
      rw [grant?_eq h, List.filter_cons_of_pos (by simp [h]), List.flatMap_cons,
        ifMapped_append, List.filterMap_cons]
      cases t.grantOf? p <;> rfl

end RoleTable

end AccessPolicy
