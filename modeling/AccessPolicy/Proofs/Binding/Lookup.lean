import AccessPolicy.Binding.RoleTable
import Mathlib.Data.List.Basic

/-!
# Looking up roles and actions

A valid table gives no action two roles. So an action of a role leads back to it, unless the action
only carries the role and has a row for another one. No such row is in the way of a role that some
action has at all.

* `validate_eq_ok_iff`: which tables are valid.
* `accepted_iff`: the tables that can be made are the valid ones.
* `actions_eq`: the actions of a role, in closed form.
* `role?_eq_some_iff`: the role of an action.
* `leadsTo_of_role?`: the actions of a role that some action has lead back to it.
-/

namespace AccessPolicy.RoleTable

/-! ## Valid tables -/

/-- Rows give no action two roles. -/
def Functional (rows : List RoleRow) : Prop :=
  ∀ r ∈ rows, ∀ s ∈ rows, r.action = s.action → r.role = s.role

/-- No row has an empty side and no action has two roles. -/
structure Valid (t : RoleTable) : Prop where
  sides_ne : ∀ r ∈ t.rows, r.action ≠ "" ∧ r.role ≠ ""
  functional : Functional t.rows

/-- Which rows there are decides, not their order. -/
theorem Functional.mono {rows rows' : List RoleRow} (h : Functional rows') (hsub : rows ⊆ rows') :
    Functional rows :=
  fun r hr s hs => h r (hsub hr) s (hsub hs)

theorem functional_cons_iff {r : RoleRow} {rows : List RoleRow} :
    Functional (r :: rows) ↔
      Functional rows ∧ ∀ s ∈ rows, s.action = r.action → s.role = r.role := by
  constructor
  · intro h
    refine ⟨fun s hs s' hs' => h s (.tail r hs) s' (.tail r hs'), fun s hs => ?_⟩
    exact h s (.tail r hs) r List.mem_cons_self
  · rintro ⟨h, hr⟩ s hs s' hs' haction
    rw [List.mem_cons] at hs hs'
    rcases hs with rfl | hs <;> rcases hs' with rfl | hs'
    · rfl
    · exact (hr s' hs' haction.symm).symm
    · exact hr s hs haction
    · exact h s hs s' hs' haction

/-- The role of an earlier row agrees with a role exactly if those of all earlier rows do. -/
theorem earlierRole?_agrees_iff {before : List RoleRow} (h : Functional before)
    (action role : String) :
    (∀ previous, earlierRole? before action = some previous → previous = role) ↔
      ∀ s ∈ before, s.action = action → s.role = role := by
  unfold earlierRole?
  constructor
  · intro hagrees s hs haction
    cases hfind : before.find? fun r => r.action = action with
    | none => exact absurd haction (by simpa using List.find?_eq_none.mp hfind s hs)
    | some r =>
      have hr : r.action = action := by simpa using List.find?_some hfind
      rw [h s hs r (List.mem_of_find?_eq_some hfind) (haction.trans hr.symm)]
      exact hagrees r.role (by rw [hfind]; rfl)
  · intro hall previous hprevious
    obtain ⟨r, hfind, rfl⟩ := Option.map_eq_some_iff.mp hprevious
    exact hall r (List.mem_of_find?_eq_some hfind) (by simpa using List.find?_some hfind)

/-- A row is accepted after others if it has no empty side and agrees with the earlier role of its
    action, and then the others behind it are checked. -/
theorem validateRows_cons_eq_ok_iff {before : List RoleRow} {r : RoleRow} {rows : List RoleRow} :
    validateRows before (r :: rows) = .ok () ↔
      (r.action ≠ "" ∧ r.role ≠ "") ∧
        (∀ previous, earlierRole? before r.action = some previous → previous = r.role) ∧
        validateRows (r :: before) rows = .ok () := by
  rw [validateRows, ← not_or]
  by_cases hempty : r.action = "" ∨ r.role = ""
  · simp [hempty]
  · cases earlierRole? before r.action with
    | none => simp [hempty]
    | some previous => by_cases hsame : previous = r.role <;> simp [hempty, hsame]

/-- Rows are accepted after others exactly if none of them has an empty side and all together give
    no action two roles. -/
theorem validateRows_eq_ok_iff {before : List RoleRow} (h : Functional before)
    (rows : List RoleRow) :
    validateRows before rows = .ok () ↔
      (∀ r ∈ rows, r.action ≠ "" ∧ r.role ≠ "") ∧ Functional (before ++ rows) := by
  induction rows generalizing before with
  | nil => simp [validateRows, h]
  | cons r rows ih =>
    have hmoved : Functional (before ++ r :: rows) ↔ Functional (r :: (before ++ rows)) :=
      ⟨fun h => h.mono (by simp), fun h => h.mono (by simp)⟩
    rw [validateRows_cons_eq_ok_iff, earlierRole?_agrees_iff h, List.forall_mem_cons, hmoved]
    constructor
    · rintro ⟨hsides, hagrees, hrest⟩
      obtain ⟨hrows, hall⟩ := (ih (functional_cons_iff.mpr ⟨h, hagrees⟩)).mp hrest
      exact ⟨⟨hsides, hrows⟩, hall⟩
    · rintro ⟨⟨hsides, hrows⟩, hall⟩
      have hfirst : Functional (r :: before) := hall.mono (by simp)
      exact ⟨hsides, (functional_cons_iff.mp hfirst).2, (ih hfirst).mpr ⟨hrows, hall⟩⟩

theorem validate_eq_ok_iff {t : RoleTable} : t.validate = .ok () ↔ t.Valid := by
  have hnil : Functional [] := by simp [Functional]
  unfold validate
  rw [validateRows_eq_ok_iff hnil]
  exact ⟨fun h => ⟨h.1, h.2⟩, fun h => ⟨h.sides_ne, h.functional⟩⟩

/-! ## Tables that can be made -/

/-- The tables that are made of pairs or read from a text, with any beginning of actions that carry
    their role. -/
inductive Accepted : RoleTable → Prop where
  | ofPairs {pairs : List (String × String)} {t : RoleTable} :
    RoleTable.ofPairs pairs = .ok t → Accepted t
  | load {text : String} {t : RoleTable} : RoleTable.load text = .ok t → Accepted t
  | withPassthrough {t : RoleTable} (beginning : String) :
    Accepted t → Accepted (t.withPassthrough beginning)

theorem checked_eq_ok_iff {t t' : RoleTable} : t.checked = .ok t' ↔ t.Valid ∧ t = t' := by
  rw [← validate_eq_ok_iff]
  unfold checked
  cases t.validate <;> simp [bind, Except.bind, pure, Except.pure]

theorem valid_of_load {text : String} {t : RoleTable} (h : load text = .ok t) : t.Valid := by
  unfold load at h
  split at h
  · obtain ⟨hvalid, rfl⟩ := checked_eq_ok_iff.mp h
    exact hvalid
  · cases h

theorem accepted_iff {t : RoleTable} : t.Accepted ↔ t.Valid := by
  constructor
  · intro h
    induction h with
    | ofPairs h =>
      obtain ⟨hvalid, rfl⟩ := checked_eq_ok_iff.mp h
      exact hvalid
    | load h => exact valid_of_load h
    | withPassthrough _ _ ih => exact ⟨ih.sides_ne, ih.functional⟩
  · intro h
    have hrows : ofPairs (t.rows.map fun r => (r.action, r.role)) = .ok { rows := t.rows } := by
      unfold ofPairs
      rw [List.map_map, checked_eq_ok_iff]
      have hsame : t.rows.map ((fun p => ⟨p.1, p.2⟩) ∘ fun r => (r.action, r.role)) = t.rows :=
        List.map_id _
      rw [hsame]
      exact ⟨⟨h.sides_ne, h.functional⟩, rfl⟩
    obtain ⟨rows, _ | beginning⟩ := t
    · exact .ofPairs hrows
    · exact .withPassthrough beginning (.ofPairs hrows)

/-! ## The actions of a role -/

variable {t : RoleTable}

theorem mem_rowActions_iff {role action : String} :
    action ∈ t.rowActions role ↔ ⟨action, role⟩ ∈ t.rows := by
  unfold rowActions
  rw [List.mem_map]
  constructor
  · rintro ⟨r, hr, rfl⟩
    obtain ⟨hr, hrole⟩ := List.mem_filter.mp hr
    rw [decide_eq_true_eq] at hrole
    exact hrole ▸ hr
  · exact fun h => ⟨⟨action, role⟩, List.mem_filter.mpr ⟨h, by simp⟩, rfl⟩

theorem rowActions_eq_nil_iff {role : String} :
    t.rowActions role = [] ↔ ∀ r ∈ t.rows, r.role ≠ role := by
  rw [List.eq_nil_iff_forall_not_mem]
  simp only [mem_rowActions_iff]
  constructor
  · rintro h ⟨action, _⟩ hr rfl
    exact h action hr
  · exact fun h action hr => h _ hr rfl

/-- The actions that grant a role: those of its rows, or else the one that carries it. -/
def granting (t : RoleTable) (role : String) : List String :=
  if t.rowActions role = [] then (t.passthrough.map (· ++ role)).toList else t.rowActions role

theorem actions_eq (t : RoleTable) (role : String) :
    t.actions role =
      if t.granting role = [] then .error (.unknownRole role) else .ok (t.granting role) := by
  unfold actions granting
  cases t.rowActions role with
  | nil => cases t.passthrough <;> simp
  | cons action others => simp

theorem actions_eq_ok_iff {role : String} {actions : List String} :
    t.actions role = .ok actions ↔ t.granting role ≠ [] ∧ t.granting role = actions := by
  rw [actions_eq]
  split_ifs with h <;> simp [h]

theorem mem_granting_iff {role action : String} :
    action ∈ t.granting role ↔ ⟨action, role⟩ ∈ t.rows ∨
      (∀ r ∈ t.rows, r.role ≠ role) ∧ ∃ b, t.passthrough = some b ∧ action = b ++ role := by
  unfold granting
  split_ifs with h
  · have hrows := rowActions_eq_nil_iff.mp h
    have hnone : (⟨action, role⟩ : RoleRow) ∉ t.rows := fun hr => hrows _ hr rfl
    rw [Option.mem_toList, Option.map_eq_some_iff, or_iff_right hnone, and_iff_right hrows]
    simp only [eq_comm]
  · rw [mem_rowActions_iff]
    exact ⟨Or.inl, fun hr => hr.resolve_right fun hno => h (rowActions_eq_nil_iff.mpr hno.1)⟩

/-! ## The role of an action -/

theorem carried?_eq_some_iff {beginning action role : String} :
    carried? beginning action = some role ↔ action = beginning ++ role ∧ role ≠ "" := by
  have happend : action = beginning ++ role ↔
      action.toList = beginning.toList ++ role.toList := by
    rw [← String.toList_append, String.toList_inj]
  rw [happend, ← Text.after?_eq_some_iff]
  unfold carried?
  cases Text.after? beginning.toList action.toList with
  | none => simp
  | some rest =>
    cases rest with
    | nil =>
      simp only [reduceCtorEq, false_iff, Option.some.injEq, not_and, not_not]
      exact fun h => String.toList_eq_nil_iff.mp h.symm
    | cons c cs =>
      have hne : role.toList = c :: cs → role ≠ "" := by
        rintro h rfl
        cases h
      simp only [Option.some.injEq]
      constructor
      · rintro rfl
        exact ⟨by simp, hne (by simp)⟩
      · rintro ⟨h, -⟩
        rw [h, String.ofList_toList]

/-- An action has the role of its row or, without a row, the one that it carries. -/
theorem role?_eq_some_iff (ht : t.Valid) {action role : String} :
    t.role? action = some role ↔ ⟨action, role⟩ ∈ t.rows ∨
      (∀ r ∈ t.rows, r.action ≠ action) ∧
        ∃ b, t.passthrough = some b ∧ action = b ++ role ∧ role ≠ "" := by
  unfold role?
  cases hfind : t.rows.find? fun r => r.action = action with
  | some r =>
    have hr : r ∈ t.rows := List.mem_of_find?_eq_some hfind
    have haction : r.action = action := by simpa using List.find?_some hfind
    constructor
    · intro hrole
      obtain rfl : r.role = role := Option.some.inj hrole
      subst haction
      exact Or.inl hr
    · rintro (hrow | ⟨hnone, -⟩)
      · exact congrArg some (ht.functional r hr _ hrow haction)
      · exact absurd haction (hnone r hr)
  | none =>
    have hnone : ∀ r ∈ t.rows, r.action ≠ action := by
      simpa using List.find?_eq_none.mp hfind
    have hrow : (⟨action, role⟩ : RoleRow) ∉ t.rows := fun h => hnone _ h rfl
    change (t.passthrough.bind fun beginning => carried? beginning action) = some role ↔ _
    rw [Option.bind_eq_some_iff]
    simp only [carried?_eq_some_iff, hrow, false_or]
    exact ⟨fun h => ⟨hnone, h⟩, fun h => h.2⟩

theorem ne_of_role? (ht : t.Valid) {action role : String} (h : t.role? action = some role) :
    action ≠ "" := by
  rcases (role?_eq_some_iff ht).mp h with hrow | ⟨-, b, -, rfl, hrole⟩
  · exact (ht.sides_ne _ hrow).1
  · intro hempty
    exact hrole (String.append_eq_empty_iff.mp hempty).2

/-! ## There and back -/

/-- There are actions that grant a role, and all of them have one role, perhaps another one. -/
structure LeadsTo (t : RoleTable) (role role' : String) : Prop where
  granting_ne_nil : t.granting role ≠ []
  ne_empty : ∀ action ∈ t.granting role, action ≠ ""
  role?_eq : ∀ action ∈ t.granting role, t.role? action = some role'

/-- The actions of a role that some action has lead back to it. -/
theorem leadsTo_of_role? (ht : t.Valid) {action role : String}
    (h : t.role? action = some role) : t.LeadsTo role role := by
  have hback : ∀ other ∈ t.granting role, t.role? other = some role := by
    intro other hother
    rcases mem_granting_iff.mp hother with hrow | ⟨hnorow, b, hb, rfl⟩
    · exact (role?_eq_some_iff ht).mpr (Or.inl hrow)
    · -- the role has no row, so the action that has it is the one that carries it
      rcases (role?_eq_some_iff ht).mp h with hrow | ⟨-, b', hb', haction, -⟩
      · exact absurd rfl (hnorow _ hrow)
      · obtain rfl : b' = b := Option.some.inj (hb'.symm.trans hb)
        rwa [← haction]
  refine ⟨?_, fun other hother => ne_of_role? ht (hback other hother), hback⟩
  rcases (role?_eq_some_iff ht).mp h with hrow | ⟨-, b, hb, rfl, -⟩
  · exact List.ne_nil_of_mem (mem_granting_iff.mpr (Or.inl hrow))
  · by_cases hrows : t.rowActions role = []
    · unfold granting
      simp [hrows, hb]
    · unfold granting
      simp [hrows]

end AccessPolicy.RoleTable
