import AccessPolicy.Proofs.Binding.Regroup

/-!
# Roles that come back as others

A role without a row is granted by the action that carries it. If this action has a row, the row
decides about the role of the action. Such a role is shadowed: who has it comes back with the role
of the row. Every other role comes back as itself.

* `Shadows`: a row shadows a role.
* `returned_of_shadows`, `returned_of_not_shadows`: the role as which a role comes back.
* `leadsTo_returned`: the actions that grant a role lead to the role as which it comes back.
* `assignments_of_policies`: assignments there and back, with the roles that come back.
* `role?_of_actions`: the roles of the actions of a role, and assignments there and back.
* `editor_moved`: a member who comes back with another role.
-/

namespace AccessPolicy.RoleTable

/-! ## Shadowed roles -/

/-- A row shadows a role: there is no row of the role, and the action that carries it has this
    row. -/
structure Shadows (t : RoleTable) (r : RoleRow) (role : String) : Prop where
  mem : r ∈ t.rows
  role_ne : ∀ r' ∈ t.rows, r'.role ≠ role
  action_eq : ∃ b, t.passthrough = some b ∧ r.action = b ++ role

/-- The first row that shadows a role. -/
def shadow? (t : RoleTable) (role : String) : Option RoleRow :=
  if t.rowActions role = [] then
    t.passthrough.bind fun b => t.rows.find? fun r => r.action = b ++ role
  else none

/-- The role as which a role comes back: that of the row that shadows it, or itself. -/
def returned (t : RoleTable) (role : String) : String :=
  ((t.shadow? role).map RoleRow.role).getD role

variable {t : RoleTable} {role : String} {r : RoleRow}

theorem shadows_of_shadow? (h : t.shadow? role = some r) : t.Shadows r role := by
  unfold shadow? at h
  split_ifs at h with hrows
  obtain ⟨b, hb, hfind⟩ := Option.bind_eq_some_iff.mp h
  exact ⟨List.mem_of_find?_eq_some hfind, rowActions_eq_nil_iff.mp hrows, b, hb,
    by simpa using List.find?_some hfind⟩

theorem not_shadows_of_shadow? (h : t.shadow? role = none) : ¬ t.Shadows r role := by
  rintro ⟨hr, hrole, b, hb, haction⟩
  unfold shadow? at h
  rw [if_pos (rowActions_eq_nil_iff.mpr hrole), hb, Option.bind_some, List.find?_eq_none] at h
  exact h r hr (by simpa using haction)

/-- All rows that shadow a role are of one role. -/
theorem returned_of_shadows (ht : t.Valid) (h : t.Shadows r role) : t.returned role = r.role := by
  cases hshadow : t.shadow? role with
  | none => exact absurd h (not_shadows_of_shadow? hshadow)
  | some r' =>
    have h' := shadows_of_shadow? hshadow
    obtain ⟨b, hb, haction⟩ := h.action_eq
    obtain ⟨b', hb', haction'⟩ := h'.action_eq
    obtain rfl : b' = b := Option.some.inj (hb'.symm.trans hb)
    rw [returned, hshadow]
    exact ht.functional r' h'.mem r h.mem (haction'.trans haction.symm)

theorem returned_of_not_shadows (h : ∀ r, ¬ t.Shadows r role) : t.returned role = role := by
  cases hshadow : t.shadow? role with
  | none => rw [returned, hshadow]; rfl
  | some r => exact absurd (shadows_of_shadow? hshadow) (h r)

theorem returned_eq_self_iff (ht : t.Valid) :
    t.returned role = role ↔ ∀ r, ¬ t.Shadows r role := by
  constructor
  · intro hself r hr
    rw [returned_of_shadows ht hr] at hself
    exact hr.role_ne r hr.mem hself
  · exact returned_of_not_shadows

/-! ## There and back -/

/-- Where the action that carries a role has a row, this row decides, and otherwise the role comes
    back. -/
theorem role?_of_mem_granting (ht : t.Valid) (hrole : role ≠ "") {action : String}
    (h : action ∈ t.granting role) : t.role? action = some (t.returned role) := by
  rw [role?_eq_some_iff ht]
  rcases mem_granting_iff.mp h with hrow | ⟨hnorow, b, hb, rfl⟩
  · have hnone : ∀ r, ¬ t.Shadows r role := fun r hr => hr.role_ne _ hrow rfl
    rw [returned_of_not_shadows hnone]
    exact Or.inl hrow
  · by_cases htaken : ∃ r ∈ t.rows, r.action = b ++ role
    · obtain ⟨r, hr, haction⟩ := htaken
      rw [returned_of_shadows ht ⟨hr, hnorow, b, hb, haction⟩, ← haction]
      exact Or.inl hr
    · have hfree : ∀ r ∈ t.rows, r.action ≠ b ++ role := fun r hr h => htaken ⟨r, hr, h⟩
      have hnone : ∀ r, ¬ t.Shadows r role := by
        rintro r ⟨hr, -, b', hb', haction⟩
        obtain rfl : b' = b := Option.some.inj (hb'.symm.trans hb)
        exact hfree r hr haction
      rw [returned_of_not_shadows hnone]
      exact Or.inr ⟨hfree, b, hb, rfl, hrole⟩

theorem leadsTo_returned (ht : t.Valid) (hrole : role ≠ "") (h : t.granting role ≠ []) :
    t.LeadsTo role (t.returned role) :=
  ⟨h, fun _ haction => ne_of_role? ht (role?_of_mem_granting ht hrole haction),
    fun _ => role?_of_mem_granting ht hrole⟩

/-- All actions that grant a role have it exactly if it comes back as itself. -/
theorem role?_granting_eq_self_iff (ht : t.Valid) (hrole : role ≠ "") (h : t.granting role ≠ []) :
    (∀ a ∈ t.granting role, t.role? a = some role) ↔ t.returned role = role := by
  have hback : ∀ a ∈ t.granting role, t.role? a = some (t.returned role) :=
    fun a => role?_of_mem_granting ht hrole
  constructor
  · intro hself
    obtain ⟨a, ha⟩ := List.exists_mem_of_ne_nil _ h
    exact Option.some.inj ((hback a ha).symm.trans (hself a ha))
  · exact fun hself a ha => (hback a ha).trans (congrArg some hself)

theorem map_mapRoles_returned {as : List Assignment}
    (h : ∀ a ∈ as, ∀ b ∈ a.bindings, ∀ r, ¬ t.Shadows r b.role) :
    as.map (·.mapRoles t.returned) = as := by
  apply (List.map_congr_left _).trans (List.map_id _)
  intro a ha
  exact Assignment.mapRoles_eq_self fun b hb => returned_of_not_shadows (h a ha b hb)

/-- Policies of assignments have assignments again, in which every role is replaced by the one as
    which it comes back. -/
theorem assignments_of_policies (ht : t.Valid) {as : List Assignment} {ps : PolicySet}
    (hroles : ∀ a ∈ as, ∀ b ∈ a.bindings, b.role ≠ "") (h : t.policies as = .ok ps) :
    t.assignments ps = .ok (Assignment.regrouped
      ((as.filter fun a => a.resourceId ≠ "").map (·.mapRoles t.returned))) := by
  have hknown := (policies_eq_ok_iff.mp h).1
  obtain ⟨ps', hpolicies, hassignments⟩ := policies_assignments_mapRoles
    fun a ha b hb => leadsTo_returned ht (hroles a ha b hb) (hknown a ha b hb)
  obtain rfl : ps' = ps := Except.ok.inj (hpolicies.symm.trans h)
  exact hassignments

/-- **Actions of a role.** The actions that grant a role all have the role as which it comes back.
    This is the role itself exactly if no row shadows it, and otherwise the role of that row.
    Assignments that have policies have assignments again: those on a resource, regrouped, with the
    roles as which their roles come back. If no row shadows a role of theirs, nothing moves. -/
theorem role?_of_actions {t : RoleTable} (ht : t.Accepted) :
    (∀ role actions, role ≠ "" → t.actions role = .ok actions →
      (∀ a ∈ actions, t.role? a = some (t.returned role)) ∧
      ((∀ a ∈ actions, t.role? a = some role) ↔ ∀ r, ¬ t.Shadows r role)) ∧
    (∀ r role, t.Shadows r role → t.returned role = r.role ∧ r.role ≠ role) ∧
    ∀ as ps, (∀ a ∈ as, ∀ b ∈ a.bindings, b.role ≠ "") → t.policies as = .ok ps →
      ∃ as', t.assignments ps = .ok as' ∧
        Regroups ((as.filter fun a => a.resourceId ≠ "").map (·.mapRoles t.returned)) as' ∧
        ((∀ a ∈ as, ∀ b ∈ a.bindings, ∀ r, ¬ t.Shadows r b.role) →
          Regroups (as.filter fun a => a.resourceId ≠ "") as') := by
  rw [accepted_iff] at ht
  refine ⟨?_, fun r role h => ⟨returned_of_shadows ht h, h.role_ne r h.mem⟩, ?_⟩
  · intro role actions hrole hactions
    obtain ⟨hknown, rfl⟩ := actions_eq_ok_iff.mp hactions
    refine ⟨fun a => role?_of_mem_granting ht hrole, ?_⟩
    rw [role?_granting_eq_self_iff ht hrole hknown, returned_eq_self_iff ht]
  · intro as ps hroles hpolicies
    refine ⟨_, assignments_of_policies ht hroles hpolicies, regroups_regrouped _, fun hnone => ?_⟩
    rw [map_mapRoles_returned fun a ha => hnone a (List.mem_of_mem_filter ha)]
    exact regroups_regrouped _

/-- A table in which the action that would carry the editor is one of the viewer. -/
def shadowing : RoleTable := ⟨[⟨"view", "viewer"⟩, ⟨"gcp:editor", "viewer"⟩], some "gcp:"⟩

theorem accepted_shadowing : shadowing.Accepted := by
  have hpairs : ofPairs [("view", "viewer"), ("gcp:editor", "viewer")] =
      .ok ⟨shadowing.rows, none⟩ := by decide
  exact .withPassthrough "gcp:" (.ofPairs hpairs)

theorem role?_of_actions_album :
    let as : List Assignment := [⟨"album", [⟨"owner", ["user:alice"]⟩, ⟨"viewer", ["user:bob"]⟩]⟩]
    (∀ a ∈ ["gcp:owner"], shadowing.role? a = some "owner") ∧
      ∃ ps as', shadowing.policies as = .ok ps ∧ shadowing.assignments ps = .ok as' ∧
        Regroups as as' := by
  intro as
  have hnone : ∀ role, shadowing.returned role = role → ∀ r, ¬ shadowing.Shadows r role :=
    fun _ h => (returned_eq_self_iff (accepted_iff.mp accepted_shadowing)).mp h
  have howner := hnone "owner" (by decide)
  have hviewer := hnone "viewer" (by decide)
  obtain ⟨hactions, -, hround⟩ := role?_of_actions accepted_shadowing
  obtain ⟨ps, hps⟩ : ∃ ps, shadowing.policies as = .ok ps := ⟨_, rfl⟩
  obtain ⟨as', has', -, hregroups⟩ := hround as ps (by decide) hps
  refine ⟨(hactions "owner" ["gcp:owner"] (by decide) (by decide)).2.mpr howner, ps, as', hps, has',
    hregroups ?_⟩
  simpa [as] using ⟨howner, hviewer⟩

/-- But the editor is a viewer afterwards. -/
theorem editor_moved :
    (¬ ∀ t : RoleTable, t.Accepted → ∀ role actions, role ≠ "" → t.actions role = .ok actions →
      ∀ a ∈ actions, t.role? a = some role) ∧
    (shadowing.policies [⟨"album", [⟨"editor", ["user:alice"]⟩]⟩] >>= shadowing.assignments) =
      .ok [⟨"album", [⟨"viewer", ["user:alice"]⟩]⟩] := by
  refine ⟨fun h => ?_, by decide⟩
  have hrole := h shadowing accepted_shadowing "editor" ["gcp:editor"] (by decide) (by decide)
    "gcp:editor" List.mem_cons_self
  exact absurd hrole (by decide)

end AccessPolicy.RoleTable
