import AccessPolicy.Proofs.Binding.Grants

/-!
# The grant relation of assignments

The assignments of policies hold exactly the roles and members that the policies induce: a role is
bound on a resource if a policy on it includes an action with this role, and the members of the
role are the members of all such policies. Resources, roles and members stand in the order in which
they first come, and none is repeated. A policy that only excludes, that denies or that names no
resource induces nothing.

* `ofGrants_eq`: the assignments of grants, in closed form.
* `Induces`: assignments hold what policies induce.
* `assignments_spec`: which policies cannot be expressed, when the others have assignments, and that
  these hold what they induce.
-/

namespace AccessPolicy

open Outcome

/-! ## Assignments of grants -/

/-- The roles of a grant, each with its members. -/
def Grant.shares (g : Grant) : List (String × List String) := g.roles.map (·, g.members)

theorem flatMap_filter {α β : Type} (p : α → Bool) (f : α → List β) (xs : List α) :
    (xs.filter p).flatMap f = xs.flatMap fun x => if p x then f x else [] := by
  induction xs with
  | nil => rfl
  | cons x xs ih =>
    rw [List.filter_cons, List.flatMap_cons]
    split_ifs with h
    · rw [List.flatMap_cons, ih]
    · rw [ih, List.nil_append]

namespace Binding

theorem foldl_addMembers (shares : List (String × List String)) (b : Binding) :
    shares.foldl (fun b s => b.addMembers s.2) b =
      { b with members := addAll b.members (shares.flatMap Prod.snd) } := by
  induction shares generalizing b with
  | nil => rfl
  | cons s shares ih =>
    rw [List.foldl_cons, ih, List.flatMap_cons, addAll_append]
    rfl

/-- The bindings of grants on one resource: one for each role, with the members of all grants of
    it. -/
def ofGrants (gs : List Grant) : List Binding :=
  (gs.flatMap Grant.roles).eraseDups.map fun role =>
    { role, members := ((gs.filter fun g => role ∈ g.roles).flatMap Grant.members).eraseDups }

theorem roles_ofGrants (gs : List Grant) :
    (ofGrants gs).map Binding.role = (gs.flatMap Grant.roles).eraseDups := by
  unfold ofGrants
  rw [List.map_map]
  exact List.map_id _

theorem members_of_mem_ofGrants {gs : List Grant} {b : Binding} (h : b ∈ ofGrants gs) :
    b.members = ((gs.filter fun g => b.role ∈ g.roles).flatMap Grant.members).eraseDups := by
  obtain ⟨role, _, rfl⟩ := List.mem_map.mp h
  rfl

/-- Shares of one role add up to the members of the grants of this role. -/
theorem members_shares (gs : List Grant) (role : String) :
    (((gs.flatMap Grant.shares).filter fun s => s.1 = role).flatMap Prod.snd).eraseDups =
      ((gs.filter fun g => role ∈ g.roles).flatMap Grant.members).eraseDups := by
  have hgrant : ∀ g : Grant,
      ((g.shares.filter fun s => s.1 = role).flatMap Prod.snd).eraseDups =
        (if role ∈ g.roles then g.members else []).eraseDups := by
    intro g
    have hshares : (g.shares.filter fun s => s.1 = role).flatMap Prod.snd =
        (g.roles.filter fun r => r = role).flatMap fun _ => g.members := by
      simp [Grant.shares, List.filter_map, List.flatMap_map, Function.comp_def]
    rw [hshares]
    split_ifs with h
    · apply eraseDups_flatMap_const
      exact List.ne_nil_of_mem (List.mem_filter.mpr ⟨h, by simp⟩)
    · rw [List.filter_eq_nil_iff.mpr]
      · rfl
      · intro r hr hrole
        rw [decide_eq_true_eq] at hrole
        exact h (hrole ▸ hr)
  rw [flatMap_filter _ Grant.members, List.filter_flatMap, List.flatMap_assoc,
    ← eraseDups_flatMap_eraseDups]
  simp only [hgrant, decide_eq_true_eq]
  rw [eraseDups_flatMap_eraseDups]

end Binding

namespace Assignment

theorem foldl_grant (shares : List (String × List String)) (a : Assignment) :
    shares.foldl (fun a s => a.grant s.1 s.2) a =
      { a with
        bindings := shares.foldl (fun bs s =>
          updateFirst (fun b => b.role = s.1) { role := s.1 } (fun b => b.addMembers s.2) bs)
          a.bindings } := by
  induction shares generalizing a with
  | nil => rfl
  | cons s shares ih =>
    rw [List.foldl_cons, ih]
    rfl

/-- Shares of a new assignment bind each role once, with all members that come with it. -/
theorem foldl_grant_new (shares : List (String × List String)) (x : String) :
    shares.foldl (fun a s => a.grant s.1 s.2) (⟨x, []⟩ : Assignment) =
      ⟨x, (shares.map Prod.fst).eraseDups.map fun role =>
        ⟨role, ((shares.filter fun s => s.1 = role).flatMap Prod.snd).eraseDups⟩⟩ := by
  rw [foldl_grant]
  congr 1
  rw [foldl_updateFirst Binding.role (fun role => { role }) Prod.fst
    (fun s b => b.addMembers s.2) (fun _ => rfl) (fun _ _ => rfl)]
  apply List.map_congr_left
  intro role _
  rw [Binding.foldl_addMembers, addAll_nil_eq]

theorem takeUp_eq (a : Assignment) (g : Grant) :
    a.takeUp g = g.shares.foldl (fun a s => a.grant s.1 s.2) a := by
  unfold takeUp Grant.shares
  rw [List.foldl_map]

@[simp]
theorem resourceId_takeUp (a : Assignment) (g : Grant) :
    (a.takeUp g).resourceId = a.resourceId := by
  rw [takeUp_eq, foldl_grant]

/-- Grants taken up by an assignment without bindings give it the bindings of these grants. -/
theorem foldl_takeUp (gs : List Grant) (x : String) :
    gs.foldl takeUp ⟨x, []⟩ = ⟨x, Binding.ofGrants gs⟩ := by
  have hshares : gs.foldl takeUp ⟨x, []⟩ =
      (gs.flatMap Grant.shares).foldl (fun a s => a.grant s.1 s.2) ⟨x, []⟩ := by
    rw [List.foldl_flatMap]
    simp only [← takeUp_eq]
  have hroles : (gs.flatMap Grant.shares).map Prod.fst = gs.flatMap Grant.roles := by
    simp [List.map_flatMap, Grant.shares, Function.comp_def]
  rw [hshares, foldl_grant_new, hroles]
  simp only [Binding.members_shares]
  rfl

/-- Grants give one assignment for each resource, with the bindings of the grants on it. -/
theorem ofGrants_eq (gs : List Grant) :
    ofGrants gs = (gs.map Grant.resourceId).eraseDups.map fun x =>
      ⟨x, Binding.ofGrants (gs.filter fun g => g.resourceId = x)⟩ := by
  have hloop : ofGrants gs = gs.foldl (fun as g => updateFirst
      (fun a => a.resourceId = g.resourceId) { resourceId := g.resourceId }
      (fun a => a.takeUp g) as) [] := rfl
  rw [hloop, foldl_updateFirst Assignment.resourceId (fun x => ⟨x, []⟩) Grant.resourceId
    (fun g a => a.takeUp g) (fun _ => rfl) (fun _ _ => resourceId_takeUp _ _)]
  apply List.map_congr_left
  intro x _
  exact foldl_takeUp _ x

end Assignment

/-! ## What policies induce -/

/-- A policy on a resource includes an action with a role. -/
def RoleTable.gives (t : RoleTable) (p : Policy) (resourceId role : String) : Prop :=
  p.resourceId = resourceId ∧
    ∃ a ∈ p.actions, a.exclude = false ∧ t.role? a.identifier = some role

/-- The roles of the included actions of a policy, in the order of these actions. -/
def RoleTable.given (t : RoleTable) (p : Policy) : List String :=
  p.actions.filterMap fun a => if a.exclude then none else t.role? a.identifier

/-- Assignments hold what policies induce. -/
structure Induces (t : RoleTable) (ps : PolicySet) (as : List Assignment) : Prop where
  /-- Resources stand in the order of the first policies on them that include an action. -/
  resourceIds_eq : as.map Assignment.resourceId =
    ((ps.filter fun p => ∃ a ∈ p.actions, a.exclude = false).map Policy.resourceId).eraseDups
  resourceIds_nodup : (as.map Assignment.resourceId).Nodup
  resourceId_ne : ∀ a ∈ as, a.resourceId ≠ ""
  bindings_ne_nil : ∀ a ∈ as, a.bindings ≠ []
  /-- Roles stand in the order of the first actions with them. -/
  roles_eq : ∀ a ∈ as, a.bindings.map Binding.role =
    ((ps.filter fun p => p.resourceId = a.resourceId).flatMap t.given).eraseDups
  roles_nodup : ∀ a ∈ as, (a.bindings.map Binding.role).Nodup
  /-- Members stand in the order in which the policies that give them the role name them. -/
  members_eq : ∀ a ∈ as, ∀ b ∈ a.bindings, b.members =
    ((ps.filter fun p => p.resourceId = a.resourceId ∧ b.role ∈ t.given p).flatMap
      fun p => p.subject.members).eraseDups
  members_nodup : ∀ a ∈ as, ∀ b ∈ a.bindings, b.members.Nodup
  /-- The roles that are bound are those that a policy gives. -/
  bound_iff : ∀ x r, (∃ a ∈ as, a.resourceId = x ∧ ∃ b ∈ a.bindings, b.role = r) ↔
    ∃ p ∈ ps, t.gives p x r
  /-- The members of a role are those of the policies that give it. -/
  member_iff : ∀ x r m,
    (∃ a ∈ as, a.resourceId = x ∧ ∃ b ∈ a.bindings, b.role = r ∧ m ∈ b.members) ↔
      ∃ p ∈ ps, t.gives p x r ∧ m ∈ p.subject.members

namespace RoleTable

variable {t : RoleTable}

theorem roles_included (p : Policy) : t.roles p.included = t.given p := by
  unfold roles Policy.included given
  rw [List.filterMap_filter]
  congr 1
  funext a
  cases a.exclude <;> rfl

theorem mem_given_iff {p : Policy} {role : String} :
    role ∈ t.given p ↔ ∃ a ∈ p.actions, a.exclude = false ∧ t.role? a.identifier = some role := by
  unfold given
  rw [List.mem_filterMap]
  simp

/-- A policy that gives a role includes an action. -/
theorem included_ne_nil_of_mem_given {p : Policy} {role : String} (h : role ∈ t.given p) :
    p.included ≠ [] := by
  obtain ⟨a, ha, hexclude, -⟩ := mem_given_iff.mp h
  exact Policy.included_ne_nil_iff.mpr ⟨a, ha, hexclude⟩

theorem gives_iff {p : Policy} {x role : String} :
    t.gives p x role ↔ p.resourceId = x ∧ role ∈ t.given p := by
  unfold gives
  rw [mem_given_iff]

theorem filterMap_grantOf? (ps : List Policy) :
    ps.filterMap t.grantOf? = (ps.filter fun p => p.included ≠ []).map t.grantOf := by
  induction ps with
  | nil => rfl
  | cons p ps ih =>
    by_cases h : p.included = []
    · simp [grantOf?, h, ih]
    · simp [grantOf?, h, ih]

/-- The roles of policies without included actions do not count, since there are none. -/
theorem flatMap_given_filter (ps : List Policy) :
    (ps.filter fun p => p.included ≠ []).flatMap t.given = ps.flatMap t.given := by
  rw [flatMap_filter]
  congr 1
  funext p
  split_ifs with h
  · rfl
  · have hnil : p.included = [] := by simpa using h
    rw [← roles_included, hnil]
    rfl

variable (ps : PolicySet)

/-- The assignments that policies induce, if all their included actions have roles. -/
def induced (t : RoleTable) (ps : PolicySet) : List Assignment :=
  Assignment.ofGrants (ps.filterMap t.grantOf?)

theorem resourceIds_induced :
    (t.induced ps).map Assignment.resourceId =
      ((ps.filter fun p => p.included ≠ []).map Policy.resourceId).eraseDups := by
  unfold induced
  rw [Assignment.ofGrants_eq, filterMap_grantOf?, List.map_map, List.map_map]
  exact List.map_id _

theorem bindings_induced {a : Assignment} (ha : a ∈ t.induced ps) :
    a.bindings = Binding.ofGrants
      (((ps.filter fun p => p.resourceId = a.resourceId).filter fun p => p.included ≠ []).map
        t.grantOf) := by
  unfold induced at ha
  rw [Assignment.ofGrants_eq, filterMap_grantOf?] at ha
  obtain ⟨x, _, rfl⟩ := List.mem_map.mp ha
  rw [List.filter_map]
  change Binding.ofGrants (((ps.filter fun p => p.included ≠ []).filter fun p =>
    p.resourceId = x).map t.grantOf) = _
  rw [List.filter_comm]

theorem roles_induced {a : Assignment} (ha : a ∈ t.induced ps) :
    a.bindings.map Binding.role =
      ((ps.filter fun p => p.resourceId = a.resourceId).flatMap t.given).eraseDups := by
  rw [bindings_induced ps ha, Binding.roles_ofGrants, List.flatMap_map]
  change ((List.filter _ _).flatMap fun p : Policy => (t.roles p.included).eraseDups).eraseDups = _
  simp only [roles_included]
  rw [eraseDups_flatMap_eraseDups, flatMap_given_filter]

theorem members_induced {a : Assignment} (ha : a ∈ t.induced ps) {b : Binding}
    (hb : b ∈ a.bindings) :
    b.members =
      ((ps.filter fun p => p.resourceId = a.resourceId ∧ b.role ∈ t.given p).flatMap
        fun p => p.subject.members).eraseDups := by
  rw [bindings_induced ps ha] at hb
  rw [Binding.members_of_mem_ofGrants hb, List.filter_map, List.flatMap_map]
  have hsame : (((ps.filter fun p => p.resourceId = a.resourceId).filter fun p =>
      p.included ≠ []).filter fun p => b.role ∈ (t.grantOf p).roles) =
        ps.filter fun p => p.resourceId = a.resourceId ∧ b.role ∈ t.given p := by
    rw [List.filter_filter, List.filter_filter]
    apply List.filter_congr
    intro p _
    by_cases hrole : b.role ∈ t.given p
    · simp [grantOf, roles_included, hrole, included_ne_nil_of_mem_given hrole]
    · simp [grantOf, roles_included, hrole]
  change ((List.filter (fun p : Policy => b.role ∈ (t.grantOf p).roles) _).flatMap
    fun p => p.subject.members).eraseDups = _
  rw [hsame]

variable {ps}

theorem unmapped?_included {p : Policy} (h : t.unmapped? (ps.flatMap Policy.included) = none)
    (hp : p ∈ ps) : t.unmapped? p.included = none := by
  unfold unmapped? at h ⊢
  rw [List.find?_eq_none] at h ⊢
  exact fun a ha => h a (List.mem_flatMap.mpr ⟨p, hp, ha⟩)

/-- The resource of an assignment is that of a policy that includes an action. -/
theorem exists_of_mem_induced {a : Assignment} (ha : a ∈ t.induced ps) :
    ∃ p ∈ ps, p.included ≠ [] ∧ p.resourceId = a.resourceId := by
  have hid : a.resourceId ∈ (t.induced ps).map Assignment.resourceId := List.mem_map_of_mem ha
  rw [resourceIds_induced, List.mem_eraseDups] at hid
  obtain ⟨p, hp, hid⟩ := List.mem_map.mp hid
  obtain ⟨hp, hincluded⟩ := List.mem_filter.mp hp
  exact ⟨p, hp, by simpa using hincluded, hid⟩

/-- A role that a policy gives is bound on its resource. -/
theorem exists_of_gives {p : Policy} (hp : p ∈ ps) {x r : String} (h : t.gives p x r) :
    ∃ a ∈ t.induced ps, a.resourceId = x ∧ ∃ b ∈ a.bindings, b.role = r := by
  obtain ⟨rfl, hrole⟩ := gives_iff.mp h
  have hresource : p.resourceId ∈ (t.induced ps).map Assignment.resourceId := by
    rw [resourceIds_induced, List.mem_eraseDups]
    refine List.mem_map_of_mem (List.mem_filter.mpr ⟨hp, ?_⟩)
    simpa using included_ne_nil_of_mem_given hrole
  obtain ⟨a, ha, hid⟩ := List.mem_map.mp hresource
  refine ⟨a, ha, hid, ?_⟩
  rw [← List.mem_map, roles_induced ps ha, List.mem_eraseDups, List.mem_flatMap]
  exact ⟨p, List.mem_filter.mpr ⟨hp, by simp [hid]⟩, hrole⟩

/-- A role that is bound is given by a policy. -/
theorem exists_gives {a : Assignment} (ha : a ∈ t.induced ps) {b : Binding}
    (hb : b ∈ a.bindings) : ∃ p ∈ ps, t.gives p a.resourceId b.role := by
  have hrole : b.role ∈ a.bindings.map Binding.role := List.mem_map_of_mem hb
  rw [roles_induced ps ha, List.mem_eraseDups, List.mem_flatMap] at hrole
  obtain ⟨p, hp, hrole⟩ := hrole
  obtain ⟨hp, hid⟩ := List.mem_filter.mp hp
  exact ⟨p, hp, gives_iff.mpr ⟨by simpa using hid, hrole⟩⟩

theorem mem_members_iff {a : Assignment} (ha : a ∈ t.induced ps) {b : Binding}
    (hb : b ∈ a.bindings) {m : String} :
    m ∈ b.members ↔ ∃ p ∈ ps, t.gives p a.resourceId b.role ∧ m ∈ p.subject.members := by
  rw [members_induced ps ha hb, List.mem_eraseDups, List.mem_flatMap]
  simp only [List.mem_filter, decide_eq_true_eq, gives_iff, and_assoc]

/-- Where all included actions have roles, the assignments hold what the policies induce. -/
theorem induces_induced (h : t.unmapped? (ps.flatMap Policy.included) = none)
    (hresource : ∀ p ∈ ps, p.resourceId ≠ "") : Induces t ps (t.induced ps) where
  resourceIds_eq := by
    rw [resourceIds_induced]
    simp only [Policy.included_ne_nil_iff]
  resourceIds_nodup := by
    rw [resourceIds_induced]
    exact nodup_eraseDups _
  resourceId_ne := by
    intro a ha
    obtain ⟨p, hp, -, hid⟩ := exists_of_mem_induced ha
    rw [← hid]
    exact hresource p hp
  bindings_ne_nil := by
    intro a ha hnil
    obtain ⟨p, hp, hincluded, hid⟩ := exists_of_mem_induced ha
    have hroles : t.given p ≠ [] := by
      rw [← roles_included, Ne, roles_eq_nil_iff (unmapped?_included h hp)]
      exact hincluded
    obtain ⟨role, hrole⟩ := List.exists_mem_of_ne_nil _ hroles
    have hbound : role ∈ a.bindings.map Binding.role := by
      rw [roles_induced ps ha, List.mem_eraseDups, List.mem_flatMap]
      exact ⟨p, List.mem_filter.mpr ⟨hp, by simp [hid]⟩, hrole⟩
    rw [hnil] at hbound
    cases hbound
  roles_eq := fun a ha => roles_induced ps ha
  roles_nodup := by
    intro a ha
    rw [roles_induced ps ha]
    exact nodup_eraseDups _
  members_eq := fun a ha b hb => members_induced ps ha hb
  members_nodup := by
    intro a ha b hb
    rw [members_induced ps ha hb]
    exact nodup_eraseDups _
  bound_iff := by
    intro x r
    constructor
    · rintro ⟨a, ha, rfl, b, hb, rfl⟩
      exact exists_gives ha hb
    · rintro ⟨p, hp, h⟩
      exact exists_of_gives hp h
  member_iff := by
    intro x r m
    constructor
    · rintro ⟨a, ha, rfl, b, hb, rfl, hm⟩
      exact (mem_members_iff ha hb).mp hm
    · rintro ⟨p, hp, h, hm⟩
      obtain ⟨a, ha, rfl, b, hb, rfl⟩ := exists_of_gives hp h
      exact ⟨a, ha, rfl, b, hb, rfl, (mem_members_iff ha hb).mpr ⟨p, hp, h, hm⟩⟩

/-! ## The assignments of policies -/

theorem assignments_eq (ps : PolicySet) :
    t.assignments ps =
      t.ifMapped (ps.representable.flatMap Policy.included) (t.induced ps.representable) := by
  unfold assignments
  rw [grants_eq]
  unfold ifMapped induced
  cases t.unmapped? (ps.representable.flatMap Policy.included) <;> rfl

theorem unmapped?_eq_none_iff {as : List Action} :
    t.unmapped? as = none ↔ ∀ a ∈ as, (t.roleOf? a).isSome := by
  unfold unmapped?
  rw [List.find?_eq_none]
  simp [Option.isSome_iff_ne_none]

theorem unmapped?_flatMap_included (ps : List Policy) :
    t.unmapped? (ps.flatMap Policy.included) =
      (ps.flatMap Policy.actions).find? fun a => !a.exclude && (t.role? a.identifier).isNone := by
  have hincluded : ps.flatMap Policy.included =
      (ps.flatMap Policy.actions).filter fun a => !a.exclude := by
    rw [List.filter_flatMap]
    rfl
  rw [hincluded, unmapped?, List.find?_filter]
  simp only [Bool.decide_and, Bool.decide_eq_true]
  rfl

/-- The assignments of policies hold what those policies induce that role bindings can express. -/
theorem induces_of_assignments {ps : PolicySet} {as : List Assignment}
    (h : t.assignments ps = .ok as) : Induces t ps.representable as := by
  rw [assignments_eq, ifMapped_eq_ok_iff] at h
  obtain ⟨hmapped, rfl⟩ := h
  exact induces_induced hmapped fun p hp => PolicySet.resourceId_ne_of_mem_representable hp

theorem exists_assignments_iff {ps : PolicySet} :
    (∃ as, t.assignments ps = .ok as) ↔
      ∀ p ∈ ps.representable, ∀ a ∈ p.actions, a.exclude = false →
        (t.role? a.identifier).isSome := by
  have hok : (∃ as, t.assignments ps = .ok as) ↔
      t.unmapped? (ps.representable.flatMap Policy.included) = none := by
    simp only [assignments_eq, ifMapped_eq_ok_iff]
    simp
  rw [hok, unmapped?_eq_none_iff, List.forall_mem_flatMap]
  simp only [Policy.mem_included_iff, and_imp, roleOf?]

theorem assignments_eq_error_iff {ps : PolicySet} {e : Error} :
    t.assignments ps = .error e ↔
      ∃ a, (ps.representable.flatMap Policy.actions).find?
          (fun a => !a.exclude && (t.role? a.identifier).isNone) = some a ∧
        e = .unmappedAction a.identifier := by
  rw [assignments_eq, ifMapped, unmapped?_flatMap_included]
  cases (ps.representable.flatMap Policy.actions).find? _ with
  | some a => simp [eq_comm]
  | none => simp

/-- **The grant relation.** Role bindings cannot express a policy that has actions but only
    excluded ones, that denies on a condition, or that names no resource. The others have
    assignments exactly if every action that they include has a role, and otherwise the first such
    action without one is the error. The assignments hold what these others induce, so the policies
    that cannot be expressed add no role and no member. -/
theorem assignments_spec (t : RoleTable) (ps : PolicySet) :
    (∀ p, p ∈ ps.unmappable ↔ p ∈ ps ∧
      ((p.actions ≠ [] ∧ ∀ a ∈ p.actions, a.exclude = true) ∨
        (∃ cond, p.condition = some cond ∧ cond.action = .deny) ∨
        ∀ o, p.object = some o → o.assetId = none ∨ o.assetId = some "")) ∧
    (∀ p ∈ ps.representable, ∃ o, p.object = some o ∧ o.assetId = some p.resourceId) ∧
    ((∃ as, t.assignments ps = .ok as) ↔
      ∀ p ∈ ps.representable, ∀ a ∈ p.actions, a.exclude = false →
        (t.role? a.identifier).isSome) ∧
    (∀ e, t.assignments ps = .error e ↔ ∃ a,
      (ps.representable.flatMap Policy.actions).find?
          (fun a => !a.exclude && (t.role? a.identifier).isNone) = some a ∧
        e = ⟨.unmappedAction, some a.identifier⟩) ∧
    (∀ as, t.assignments ps = .ok as → Induces t ps.representable as) ∧
    t.assignments ps.representable = t.assignments ps := by
  refine ⟨fun p => ?_, fun p hp => ?_, exists_assignments_iff,
    fun e => assignments_eq_error_iff, fun as => induces_of_assignments, ?_⟩
  · rw [PolicySet.mem_unmappable_iff, Policy.unmappable?_ne_none_iff, Policy.isWhollyExcluded_iff,
      Policy.denies_iff, Policy.resourceId_eq_empty_iff]
  · exact (Policy.resourceId_eq_iff (PolicySet.resourceId_ne_of_mem_representable hp)).mp rfl
  · rw [assignments_eq, assignments_eq, PolicySet.representable_representable]

/-- Policies on an album and a photo. Those of Bob cannot be expressed: one only excludes, one
    denies on a condition, and two name no resource. -/
def sharedAlbum : PolicySet :=
  [{ subject := { members := ["user:alice"] }, actions := [⟨"view", "", false⟩]
     object := some ⟨some "album", none⟩ },
   { subject := { members := ["user:bob"] }, actions := [⟨"view", "", true⟩]
     object := some ⟨some "album", none⟩ },
   { subject := { members := ["user:bob"] }, actions := [⟨"view", "", false⟩]
     object := some ⟨some "album", none⟩, condition := some ⟨"context.late", .deny⟩ },
   { subject := { members := ["user:bob"] }, actions := [⟨"view", "", false⟩] },
   { subject := { members := ["user:bob"] }, actions := [⟨"view", "", false⟩]
     object := some ⟨some "", none⟩ },
   { subject := { members := ["user:carol", "user:alice"] }
     actions := [⟨"delete", "", true⟩, ⟨"View", "edit", false⟩, ⟨"list", "", false⟩]
     object := some ⟨some "album", none⟩, condition := some ⟨"context.late", .audit⟩ },
   { actions := [⟨"Own", "gcp:owner", false⟩], object := some ⟨some "photo", none⟩ }]

/-- The others are bound, with an action by its URI and one that carries its role. An action without
    a role is reported, though not by a policy that cannot be expressed. -/
theorem assignments_spec_album :
    let t : RoleTable :=
      ⟨[⟨"view", "viewer"⟩, ⟨"list", "viewer"⟩, ⟨"edit", "editor"⟩], some "gcp:"⟩
    let as : List Assignment :=
      [⟨"album",
        [⟨"viewer", ["user:alice", "user:carol"]⟩, ⟨"editor", ["user:carol", "user:alice"]⟩]⟩,
       ⟨"photo", [⟨"owner", []⟩]⟩]
    sharedAlbum.unmappable = (sharedAlbum.drop 1).take 4 ∧
      t.assignments sharedAlbum = .ok as ∧ Induces t sharedAlbum.representable as ∧
      t.assignments
          [{ actions := [⟨"drop", "", false⟩] },
           { actions := [⟨"list", "", false⟩, ⟨"Remove", "delete", false⟩]
             object := some ⟨some "album", none⟩ }] =
        .error ⟨.unmappedAction, some "delete"⟩ := by
  intro t as
  have hok : t.assignments sharedAlbum = .ok as := by decide
  refine ⟨by decide, hok, (assignments_spec t sharedAlbum).2.2.2.2.1 as hok, ?_⟩
  exact ((assignments_spec t _).2.2.2.1 _).mpr ⟨⟨"Remove", "delete", false⟩, by decide, rfl⟩

end RoleTable

end AccessPolicy
