import AccessPolicy.Proofs.Binding.Lookup
import Mathlib.Data.Finset.Dedup

/-!
# Rows that make a table

Rows are checked in order, each against those before it. They make a table unless one of them is at
fault, and then the first that is at fault is reported. So only the set of rows counts: the same
rows in another order or number make a table, too, in which every action has the same role and every
role the same actions.

* `Faulty`: what can be wrong with a row behind others, and the error that says so.
* `FirstFault`: the first row that is at fault.
* `validateRows_eq_error_iff`: the error of a check.
* `SameRows.role?_eq`, `SameRows.actions_map_toFinset`: tables with the same set of rows.
* `ofPairs_spec`: which pairs make a table, and what it depends on.
-/

namespace AccessPolicy.RoleTable

/-! ## Rows at fault -/

/-- What is wrong with a row behind others, and the error that says so. A row with an empty side is
    not compared with others. -/
inductive Faulty (before : List RoleRow) (r : RoleRow) : Error → Prop
  | emptySide : r.action = "" ∨ r.role = "" →
    Faulty before r (.format ("role table row with empty action or role: " ++ shownRow r))
  | contradicts {s : RoleRow} : r.action ≠ "" → r.role ≠ "" → s ∈ before →
    s.action = r.action → s.role ≠ r.role →
    Faulty before r (.ambiguity
      ("action '" ++ r.action ++ "' maps to both '" ++ s.role ++ "' and '" ++ r.role ++ "'"))

/-- The row at a place is the first that is at fault. The rows of `before` come before all
    others. -/
structure FirstFault (before rows : List RoleRow) (i : Nat) (e : Error) : Prop where
  faulty : ∃ r, rows[i]? = some r ∧ Faulty (before ++ rows.take i) r e
  not_faulty : ∀ k < i, ∀ s, rows[k]? = some s → ∀ e', ¬ Faulty (before ++ rows.take k) s e'

section Step

variable {before : List RoleRow} {r : RoleRow} {rows : List RoleRow} {e : Error}

/-- The order of the rows before does not count. -/
theorem Faulty.mono {before' : List RoleRow} (h : Faulty before r e) (hsub : before ⊆ before') :
    Faulty before' r e := by
  cases h with
  | emptySide hempty => exact .emptySide hempty
  | contradicts haction hrole hs hsame hother =>
    exact .contradicts haction hrole (hsub hs) hsame hother

theorem not_faulty_iff :
    (∀ e, ¬ Faulty before r e) ↔
      (r.action ≠ "" ∧ r.role ≠ "") ∧ ∀ s ∈ before, s.action = r.action → s.role = r.role := by
  constructor
  · intro h
    have hsides : r.action ≠ "" ∧ r.role ≠ "" := not_or.mp fun hempty => h _ (.emptySide hempty)
    refine ⟨hsides, fun s hs haction => ?_⟩
    by_contra hother
    exact h _ (.contradicts hsides.1 hsides.2 hs haction hother)
  · rintro ⟨⟨haction, hrole⟩, hagrees⟩ e h
    cases h with
    | emptySide hempty => exact hempty.elim haction hrole
    | contradicts _ _ hs hsame hother => exact hother (hagrees _ hs hsame)

/-- The earlier role of an action is that of any earlier row of the action. -/
theorem earlierRole?_eq_some {s : RoleRow} (h : Functional before) (hs : s ∈ before)
    (haction : s.action = r.action) : earlierRole? before r.action = some s.role := by
  unfold earlierRole?
  cases hfind : before.find? fun r' => r'.action = r.action with
  | none => exact absurd haction (by simpa using List.find?_eq_none.mp hfind s hs)
  | some s' =>
    have hs' : s'.action = r.action := by simpa using List.find?_some hfind
    rw [Option.map_some,
      h s' (List.mem_of_find?_eq_some hfind) s hs (hs'.trans haction.symm)]

theorem validateRows_of_faulty (h : Functional before) (hfaulty : Faulty before r e) :
    validateRows before (r :: rows) = .error e := by
  cases hfaulty with
  | emptySide hempty => rw [validateRows, if_pos hempty]
  | contradicts haction hrole hs hsame hother =>
    rw [validateRows, if_neg (not_or.mpr ⟨haction, hrole⟩), earlierRole?_eq_some h hs hsame]
    exact if_neg hother

theorem validateRows_of_not_faulty (h : Functional before) (hfine : ∀ e, ¬ Faulty before r e) :
    validateRows before (r :: rows) = validateRows (r :: before) rows := by
  obtain ⟨hsides, hagrees⟩ := not_faulty_iff.mp hfine
  rw [validateRows, if_neg (not_or.mpr hsides)]
  cases hprevious : earlierRole? before r.action with
  | none => rfl
  | some previous =>
    exact if_pos ((earlierRole?_agrees_iff h r.action r.role).mpr hagrees previous hprevious)

/-! ### The first of them -/

theorem firstFault_cons_zero : FirstFault before (r :: rows) 0 e ↔ Faulty before r e := by
  constructor
  · rintro ⟨⟨s, hs, hfaulty⟩, -⟩
    obtain rfl : r = s := Option.some.inj hs
    rwa [List.take_zero, List.append_nil] at hfaulty
  · intro h
    exact ⟨⟨r, rfl, by rwa [List.take_zero, List.append_nil]⟩, fun k hk => absurd hk k.not_lt_zero⟩

theorem firstFault_cons_succ {i : Nat} :
    FirstFault before (r :: rows) (i + 1) e ↔
      (∀ e', ¬ Faulty before r e') ∧ FirstFault (r :: before) rows i e := by
  -- the row itself now counts among those before
  have hmoved : ∀ k s e', Faulty (before ++ (r :: rows).take (k + 1)) s e' ↔
      Faulty (r :: before ++ rows.take k) s e' := by
    intro k s e'
    rw [List.take_succ_cons]
    exact ⟨fun h => h.mono (by simp), fun h => h.mono (by simp)⟩
  constructor
  · rintro ⟨⟨s, hs, hfaulty⟩, hfine⟩
    refine ⟨fun e' h => hfine 0 i.succ_pos r rfl e' (by simpa using h),
      ⟨s, hs, (hmoved i s e).mp hfaulty⟩, fun k hk s hs e' h => ?_⟩
    exact hfine (k + 1) (Nat.succ_lt_succ hk) s hs e' ((hmoved k s e').mpr h)
  · rintro ⟨hfirst, ⟨s, hs, hfaulty⟩, hfine⟩
    refine ⟨⟨s, hs, (hmoved i s e).mpr hfaulty⟩, fun k hk s hs e' h => ?_⟩
    cases k with
    | zero =>
      obtain rfl : r = s := Option.some.inj hs
      exact hfirst e' (by simpa using h)
    | succ k =>
      exact hfine k (Nat.lt_of_succ_lt_succ hk) s hs e' ((hmoved k s e').mp h)

end Step

/-- A check fails with the error of the first row that is at fault. -/
theorem validateRows_eq_error_iff {before : List RoleRow} (h : Functional before)
    {rows : List RoleRow} {e : Error} :
    validateRows before rows = .error e ↔ ∃ i, FirstFault before rows i e := by
  induction rows generalizing before with
  | nil =>
    constructor
    · intro hok
      cases hok
    · rintro ⟨i, ⟨r, hr, -⟩, -⟩
      simp at hr
  | cons r rows ih =>
    by_cases hfine : ∀ e', ¬ Faulty before r e'
    · have hlonger : Functional (r :: before) :=
        functional_cons_iff.mpr ⟨h, (not_faulty_iff.mp hfine).2⟩
      rw [validateRows_of_not_faulty h hfine, ih hlonger]
      constructor
      · rintro ⟨i, hi⟩
        exact ⟨i + 1, firstFault_cons_succ.mpr ⟨hfine, hi⟩⟩
      · rintro ⟨_ | i, hi⟩
        · exact absurd (firstFault_cons_zero.mp hi) (hfine e)
        · exact ⟨i, (firstFault_cons_succ.mp hi).2⟩
    · constructor
      · intro herror
        obtain ⟨e', hfaulty⟩ := not_forall_not.mp hfine
        rw [validateRows_of_faulty h hfaulty] at herror
        obtain rfl : e' = e := Except.error.inj herror
        exact ⟨0, firstFault_cons_zero.mpr hfaulty⟩
      · rintro ⟨_ | i, hi⟩
        · exact validateRows_of_faulty h (firstFault_cons_zero.mp hi)
        · exact absurd (firstFault_cons_succ.mp hi).1 hfine

/-! ## Tables of pairs -/

theorem valid_of_pairs_iff {pairs : List (String × String)} :
    Valid { rows := pairs.map fun p => ⟨p.1, p.2⟩ } ↔
      (∀ p ∈ pairs, p.1 ≠ "" ∧ p.2 ≠ "") ∧
        ∀ p ∈ pairs, ∀ q ∈ pairs, p.1 = q.1 → p.2 = q.2 := by
  constructor
  · rintro ⟨hsides, hfunctional⟩
    exact ⟨fun p hp => hsides _ (List.mem_map_of_mem hp), fun p hp q hq =>
      hfunctional _ (List.mem_map_of_mem hp) _ (List.mem_map_of_mem hq)⟩
  · rintro ⟨hsides, hfunctional⟩
    refine ⟨List.forall_mem_map.mpr hsides, List.forall_mem_map.mpr fun p hp => ?_⟩
    exact List.forall_mem_map.mpr (hfunctional p hp)

theorem checked_eq_error_iff {t : RoleTable} {e : Error} :
    t.checked = .error e ↔ ∃ i, FirstFault [] t.rows i e := by
  have hnil : Functional [] := by simp [Functional]
  rw [← validateRows_eq_error_iff hnil]
  unfold checked validate
  cases validateRows [] t.rows <;> simp [bind, Except.bind, pure, Except.pure]

/-! ## The same rows -/

/-- Tables with the same rows, in any order and number, and the same beginning of actions that carry
    their role. -/
structure SameRows (t t' : RoleTable) : Prop where
  mem_iff : ∀ r, r ∈ t.rows ↔ r ∈ t'.rows
  passthrough_eq : t.passthrough = t'.passthrough

namespace SameRows

variable {t t' : RoleTable}

theorem valid (h : t.SameRows t') (ht : t.Valid) : t'.Valid :=
  ⟨fun r hr => ht.sides_ne r ((h.mem_iff r).mpr hr),
    ht.functional.mono fun r hr => (h.mem_iff r).mpr hr⟩

/-- Every action has the same role. -/
theorem role?_eq (h : t.SameRows t') (ht : t.Valid) (action : String) :
    t.role? action = t'.role? action := by
  apply Option.ext
  intro role
  rw [role?_eq_some_iff ht, role?_eq_some_iff (h.valid ht)]
  simp only [h.mem_iff, h.passthrough_eq]

theorem mem_granting_iff (h : t.SameRows t') {role action : String} :
    action ∈ t.granting role ↔ action ∈ t'.granting role := by
  rw [RoleTable.mem_granting_iff, RoleTable.mem_granting_iff]
  simp only [h.mem_iff, h.passthrough_eq]

/-- Every role has the same set of actions, or is not known. -/
theorem actions_map_toFinset (h : t.SameRows t') (role : String) :
    (t.actions role).map List.toFinset = (t'.actions role).map List.toFinset := by
  have hnil : t.granting role = [] ↔ t'.granting role = [] := by
    rw [List.eq_nil_iff_forall_not_mem, List.eq_nil_iff_forall_not_mem]
    simp only [h.mem_granting_iff]
  have hset : (t.granting role).toFinset = (t'.granting role).toFinset := by
    ext action
    rw [List.mem_toFinset, List.mem_toFinset, h.mem_granting_iff]
  rw [actions_eq, actions_eq]
  by_cases hunknown : t.granting role = []
  · rw [if_pos hunknown, if_pos (hnil.mp hunknown)]
  · rw [if_neg hunknown, if_neg (hnil.not.mp hunknown)]
    exact congrArg Except.ok hset

end SameRows

/-- **Role tables.** Pairs of actions and roles make a table exactly if no side is empty and no
    action comes with two roles. Otherwise the first pair that has an empty side or contradicts an
    earlier one is reported. Pairs that make a table make one in any order and number. Whatever
    actions may carry their role, every action has the same role in all these tables, and every role
    has the same actions or is not known. -/
theorem ofPairs_spec (pairs : List (String × String)) :
    ((∃ t, ofPairs pairs = .ok t) ↔
      (∀ p ∈ pairs, p.1 ≠ "" ∧ p.2 ≠ "") ∧
        ∀ p ∈ pairs, ∀ q ∈ pairs, p.1 = q.1 → p.2 = q.2) ∧
    (∀ e, ofPairs pairs = .error e ↔
      ∃ i, FirstFault [] (pairs.map fun p => ⟨p.1, p.2⟩) i e) ∧
    ∀ pairs' t, (∀ p, p ∈ pairs ↔ p ∈ pairs') → ofPairs pairs = .ok t →
      ∃ t', ofPairs pairs' = .ok t' ∧ ∀ passthrough : Option String,
        (∀ action, role? { t with passthrough } action = role? { t' with passthrough } action) ∧
        ∀ role, (actions { t with passthrough } role).map List.toFinset =
          (actions { t' with passthrough } role).map List.toFinset := by
  refine ⟨?_, fun e => checked_eq_error_iff, ?_⟩
  · rw [← valid_of_pairs_iff]
    unfold ofPairs
    simp only [checked_eq_ok_iff, exists_and_left, exists_eq', and_true]
  · intro pairs' t hpairs ht
    obtain ⟨hvalid, rfl⟩ := checked_eq_ok_iff.mp ht
    have hsame : ∀ passthrough, SameRows ⟨pairs.map fun p => ⟨p.1, p.2⟩, passthrough⟩
        ⟨pairs'.map fun p => ⟨p.1, p.2⟩, passthrough⟩ := by
      intro passthrough
      refine ⟨fun r => ?_, rfl⟩
      simp only [List.mem_map, hpairs]
    refine ⟨_, checked_eq_ok_iff.mpr ⟨(hsame none).valid hvalid, rfl⟩, fun passthrough => ?_⟩
    exact ⟨(hsame passthrough).role?_eq ⟨hvalid.sides_ne, hvalid.functional⟩,
      (hsame passthrough).actions_map_toFinset⟩

/-- A repeated pair counts once, and the order of pairs does not count. A contradiction is reported
    before an empty side that comes later. -/
theorem ofPairs_spec_rearranged :
    (∃ t t', ofPairs [("view", "viewer"), ("open", "viewer"), ("view", "viewer")] = .ok t ∧
      ofPairs [("open", "viewer"), ("view", "viewer")] = .ok t' ∧
      (t.withPassthrough "gcp:").role? "view" = (t'.withPassthrough "gcp:").role? "view" ∧
      ((t.withPassthrough "gcp:").actions "viewer").map List.toFinset =
        ((t'.withPassthrough "gcp:").actions "viewer").map List.toFinset) ∧
    ∃ i, FirstFault [] [⟨"view", "viewer"⟩, ⟨"view", "editor"⟩, ⟨"", "editor"⟩] i
      (.ambiguity "action 'view' maps to both 'viewer' and 'editor'") := by
  obtain ⟨haccepted, -, hsame⟩ :=
    ofPairs_spec [("view", "viewer"), ("open", "viewer"), ("view", "viewer")]
  obtain ⟨t, ht⟩ := haccepted.mpr ⟨by decide, by decide⟩
  obtain ⟨t', ht', heq⟩ := hsame [("open", "viewer"), ("view", "viewer")] t (by simp) ht
  obtain ⟨hrole, hactions⟩ := heq (some "gcp:")
  refine ⟨⟨t, t', ht, ht', hrole "view", hactions "viewer"⟩, ?_⟩
  have hfails : ofPairs [("view", "viewer"), ("view", "editor"), ("", "editor")] =
      .error (.ambiguity "action 'view' maps to both 'viewer' and 'editor'") := by decide
  exact ((ofPairs_spec _).2.1 _).mp hfails

end AccessPolicy.RoleTable
