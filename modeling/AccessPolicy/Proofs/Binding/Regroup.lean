import AccessPolicy.Proofs.Binding.Expansion
import AccessPolicy.Proofs.Binding.Induced
import AccessPolicy.Proofs.Grouped

/-!
# Assignments regrouped

The policies of assignments have assignments again. These hold the same, grouped by resource and by
role in the order in which resources, roles and members first come. Bindings without members are
gone, and so are assignments without bindings.

* `Assignment.ofHoldings`: the assignments that hold what is given.
* `Regroups`: assignments hold what others do, grouped and each once.
* `assignments_map_policyOf`: the assignments of policies of holdings.
* `policies_assignments_mapRoles`: assignments whose roles lead to other ones, there and back.
* `assignments_round_trip`: from assignments to policies and back.
-/

namespace AccessPolicy

open Outcome

/-! ## Assignments of holdings -/

theorem Binding.role_of_mem_holdings {x : String} {b : Binding} :
    ∀ h ∈ b.holdings x, h.role = b.role := fun _ h => (mem_holdings_iff.mp h).2.1

theorem Assignment.mem_holdings_iff {a : Assignment} {h : Holding} :
    h ∈ a.holdings ↔ h.resourceId = a.resourceId ∧
      ∃ b ∈ a.bindings, h.role = b.role ∧ h.member ∈ b.members := by
  unfold holdings
  simp only [List.mem_flatMap, Binding.mem_holdings_iff]
  constructor
  · rintro ⟨b, hb, hx, hrest⟩
    exact ⟨hx, b, hb, hrest⟩
  · rintro ⟨hx, b, hb, hrest⟩
    exact ⟨b, hb, hx, hrest⟩

theorem Assignment.resourceId_of_mem_holdings {a : Assignment} :
    ∀ h ∈ a.holdings, h.resourceId = a.resourceId := fun _ h => (mem_holdings_iff.mp h).1

/-- The bindings of holdings on one resource: one for each role. -/
def Binding.ofHoldings (hs : List Holding) : List Binding :=
  (grouped Holding.role hs).map fun g => ⟨g.1, (g.2.map Holding.member).eraseDups⟩

/-- The assignments of holdings: one for each resource. -/
def Assignment.ofHoldings (hs : List Holding) : List Assignment :=
  (grouped Holding.resourceId hs).map fun g => ⟨g.1, Binding.ofHoldings g.2⟩

theorem Binding.ofHoldings_eraseDups (hs : List Holding) :
    ofHoldings hs.eraseDups = ofHoldings hs := by
  unfold ofHoldings
  rw [grouped_eraseDups, List.map_map]
  simp only [Function.comp_def, eraseDups_map_eraseDups]

/-- Holdings count once. -/
theorem Assignment.ofHoldings_eraseDups (hs : List Holding) :
    ofHoldings hs.eraseDups = ofHoldings hs := by
  unfold ofHoldings
  rw [grouped_eraseDups, List.map_map]
  simp only [Function.comp_def, Binding.ofHoldings_eraseDups]

/-- What a holding grants. -/
def Holding.grant (h : Holding) : Grant := ⟨h.resourceId, [h.role], [h.member]⟩

theorem Binding.ofGrants_map_grant (hs : List Holding) :
    ofGrants (hs.map Holding.grant) = ofHoldings hs := by
  have hroles : (hs.map Holding.grant).flatMap Grant.roles = hs.map Holding.role := by
    rw [List.flatMap_map, List.map_eq_flatMap]
    rfl
  unfold ofGrants ofHoldings grouped
  rw [hroles, List.map_map]
  apply List.map_congr_left
  intro role _
  have hmembers : ((hs.map Holding.grant).filter fun g => role ∈ g.roles).flatMap Grant.members =
      (hs.filter fun h => h.role = role).map Holding.member := by
    rw [List.filter_map, List.flatMap_map, List.map_eq_flatMap]
    simp only [Holding.grant, Function.comp_def, List.mem_singleton, eq_comm]
  rw [hmembers]
  rfl

/-- Grants of holdings one by one give the assignments of these holdings. -/
theorem Assignment.ofGrants_map_grant (hs : List Holding) :
    ofGrants (hs.map Holding.grant) = ofHoldings hs := by
  rw [ofGrants_eq]
  unfold ofHoldings grouped
  rw [List.map_map, List.map_map]
  apply List.map_congr_left
  intro x _
  rw [List.filter_map, Binding.ofGrants_map_grant]
  rfl

/-! ## What is regrouped -/

/-- What assignments hold, grouped by resource and role. -/
def Assignment.regrouped (as : List Assignment) : List Assignment :=
  ofHoldings (as.flatMap Assignment.holdings)

/-- Assignments hold what others do, grouped by resource and role and each once. -/
structure Regroups (as as' : List Assignment) : Prop where
  /-- Resources stand in the order in which something is first held on them. -/
  resourceIds_eq : as'.map Assignment.resourceId =
    ((as.flatMap Assignment.holdings).map Holding.resourceId).eraseDups
  /-- Roles stand in the order in which they are first held. -/
  roles_eq : ∀ a ∈ as', a.bindings.map Binding.role =
    (((as.flatMap Assignment.holdings).filter fun h => h.resourceId = a.resourceId).map
      Holding.role).eraseDups
  /-- Members stand in the order in which they first hold the role. -/
  members_eq : ∀ a ∈ as', ∀ b ∈ a.bindings, b.members =
    (((as.flatMap Assignment.holdings).filter fun h =>
      h.resourceId = a.resourceId ∧ h.role = b.role).map Holding.member).eraseDups
  bindings_ne_nil : ∀ a ∈ as', a.bindings ≠ []
  members_ne_nil : ∀ a ∈ as', ∀ b ∈ a.bindings, b.members ≠ []
  mem_holdings_iff : ∀ h, h ∈ as'.flatMap Assignment.holdings ↔ h ∈ as.flatMap Assignment.holdings
  holdings_nodup : (as'.flatMap Assignment.holdings).Nodup

theorem Binding.roles_ofHoldings (hs : List Holding) :
    (ofHoldings hs).map Binding.role = (hs.map Holding.role).eraseDups := by
  unfold ofHoldings
  rw [List.map_map, ← keys_grouped]
  rfl

theorem Binding.members_ofHoldings {hs : List Holding} {b : Binding} (hb : b ∈ ofHoldings hs) :
    b.members = ((hs.filter fun h => h.role = b.role).map Holding.member).eraseDups := by
  obtain ⟨g, hg, rfl⟩ := List.mem_map.mp hb
  rw [(mem_grouped_iff.mp hg).2]

namespace Assignment

variable {hs : List Holding} {a : Assignment} {b : Binding}

theorem resourceIds_ofHoldings (hs : List Holding) :
    (ofHoldings hs).map Assignment.resourceId = (hs.map Holding.resourceId).eraseDups := by
  unfold ofHoldings
  rw [List.map_map, ← keys_grouped]
  rfl

theorem bindings_ofHoldings (ha : a ∈ ofHoldings hs) :
    a.bindings = Binding.ofHoldings (hs.filter fun h => h.resourceId = a.resourceId) := by
  obtain ⟨g, hg, rfl⟩ := List.mem_map.mp ha
  rw [(mem_grouped_iff.mp hg).2]

theorem roles_ofHoldings (ha : a ∈ ofHoldings hs) :
    a.bindings.map Binding.role =
      ((hs.filter fun h => h.resourceId = a.resourceId).map Holding.role).eraseDups := by
  rw [bindings_ofHoldings ha, Binding.roles_ofHoldings]

theorem members_ofHoldings (ha : a ∈ ofHoldings hs) (hb : b ∈ a.bindings) :
    b.members = ((hs.filter fun h => h.resourceId = a.resourceId ∧ h.role = b.role).map
      Holding.member).eraseDups := by
  rw [bindings_ofHoldings ha] at hb
  rw [Binding.members_ofHoldings hb, List.filter_filter]
  simp only [Bool.decide_and, Bool.and_comm]

theorem mem_members_ofHoldings_iff (ha : a ∈ ofHoldings hs) (hb : b ∈ a.bindings) {m : String} :
    m ∈ b.members ↔ ⟨a.resourceId, b.role, m⟩ ∈ hs := by
  rw [members_ofHoldings ha hb, List.mem_eraseDups, List.mem_map]
  simp only [List.mem_filter, decide_eq_true_eq]
  constructor
  · rintro ⟨h, ⟨hmem, hid, hrole⟩, rfl⟩
    rwa [← hid, ← hrole]
  · exact fun hmem => ⟨_, ⟨hmem, rfl, rfl⟩, rfl⟩

/-- A role that is held on the resource of an assignment is bound in it. -/
theorem exists_binding {h : Holding} (ha : a ∈ ofHoldings hs) (hmem : h ∈ hs)
    (hid : h.resourceId = a.resourceId) : ∃ b ∈ a.bindings, b.role = h.role := by
  rw [← List.mem_map, roles_ofHoldings ha, List.mem_eraseDups]
  exact List.mem_map_of_mem (List.mem_filter.mpr ⟨hmem, by simp [hid]⟩)

/-- A resource on which something is held has an assignment, and no other has. -/
theorem exists_assignment_iff {x : String} :
    (∃ a ∈ ofHoldings hs, a.resourceId = x) ↔ ∃ h ∈ hs, h.resourceId = x := by
  rw [← List.mem_map, resourceIds_ofHoldings, List.mem_eraseDups, List.mem_map]

theorem bindings_ofHoldings_ne_nil (ha : a ∈ ofHoldings hs) : a.bindings ≠ [] := by
  obtain ⟨h, hmem, hid⟩ := exists_assignment_iff.mp ⟨a, ha, rfl⟩
  obtain ⟨b, hb, -⟩ := exists_binding ha hmem hid
  exact List.ne_nil_of_mem hb

theorem members_ofHoldings_ne_nil (ha : a ∈ ofHoldings hs) (hb : b ∈ a.bindings) :
    b.members ≠ [] := by
  have hrole : b.role ∈ a.bindings.map Binding.role := List.mem_map_of_mem hb
  rw [roles_ofHoldings ha, List.mem_eraseDups, List.mem_map] at hrole
  obtain ⟨h, hmem, hrole⟩ := hrole
  obtain ⟨hmem, hid⟩ := List.mem_filter.mp hmem
  rw [decide_eq_true_eq] at hid
  apply List.ne_nil_of_mem (a := h.member)
  rwa [mem_members_ofHoldings_iff ha hb, ← hid, ← hrole]

/-- The assignments of holdings hold these and nothing else. -/
theorem mem_holdings_ofHoldings_iff {h : Holding} :
    h ∈ (ofHoldings hs).flatMap holdings ↔ h ∈ hs := by
  rw [List.mem_flatMap]
  constructor
  · rintro ⟨a, ha, h'⟩
    obtain ⟨hid, b, hb, hrole, hm⟩ := mem_holdings_iff.mp h'
    rw [mem_members_ofHoldings_iff ha hb, ← hid, ← hrole] at hm
    exact hm
  · intro hmem
    obtain ⟨a, ha, hid⟩ := exists_assignment_iff.mpr ⟨h, hmem, rfl⟩
    obtain ⟨b, hb, hrole⟩ := exists_binding ha hmem hid.symm
    refine ⟨a, ha, mem_holdings_iff.mpr ⟨hid.symm, b, hb, hrole.symm, ?_⟩⟩
    rwa [mem_members_ofHoldings_iff ha hb, hid, hrole]

/-- Nothing is held twice. -/
theorem nodup_holdings_ofHoldings (hs : List Holding) :
    ((ofHoldings hs).flatMap holdings).Nodup := by
  have hids : ((ofHoldings hs).map Assignment.resourceId).Nodup := by
    rw [resourceIds_ofHoldings]
    exact nodup_eraseDups _
  refine nodup_flatMap hids (fun a _ => resourceId_of_mem_holdings) fun a ha => ?_
  have hroles : (a.bindings.map Binding.role).Nodup := by
    rw [roles_ofHoldings ha]
    exact nodup_eraseDups _
  refine nodup_flatMap hroles (fun b _ => Binding.role_of_mem_holdings) fun b hb => ?_
  have hmembers : b.members.Nodup := by
    rw [members_ofHoldings ha hb]
    exact nodup_eraseDups _
  exact hmembers.map fun m m' h => (Holding.mk.inj h).2.2

end Assignment

/-- Regrouping regroups. -/
theorem regroups_regrouped (as : List Assignment) : Regroups as (Assignment.regrouped as) where
  resourceIds_eq := Assignment.resourceIds_ofHoldings _
  roles_eq := fun _ => Assignment.roles_ofHoldings
  members_eq := fun _ ha _ => Assignment.members_ofHoldings ha
  bindings_ne_nil := fun _ => Assignment.bindings_ofHoldings_ne_nil
  members_ne_nil := fun _ ha _ => Assignment.members_ofHoldings_ne_nil ha
  mem_holdings_iff := fun _ => Assignment.mem_holdings_ofHoldings_iff
  holdings_nodup := Assignment.nodup_holdings_ofHoldings _

/-! ## Other roles -/

/-- A holding under the role that a map gives for its role. -/
def Holding.mapRole (f : String → String) (h : Holding) : Holding := { h with role := f h.role }

/-- The assignment with the roles that a map gives for its roles. -/
def Assignment.mapRoles (f : String → String) (a : Assignment) : Assignment :=
  { a with bindings := a.bindings.map fun b => { b with role := f b.role } }

theorem Assignment.mapRoles_eq_self {f : String → String} {a : Assignment}
    (h : ∀ b ∈ a.bindings, f b.role = b.role) : a.mapRoles f = a := by
  have hbindings : (a.bindings.map fun b => { b with role := f b.role }) = a.bindings := by
    apply (List.map_congr_left _).trans (List.map_id _)
    intro b hb
    rw [h b hb]
    rfl
  unfold mapRoles
  rw [hbindings]

theorem Assignment.holdings_mapRoles (f : String → String) (a : Assignment) :
    (a.mapRoles f).holdings = a.holdings.map (·.mapRole f) := by
  unfold holdings mapRoles Binding.holdings
  rw [List.flatMap_map, List.map_flatMap]
  simp only [List.map_map]
  rfl

/-- What assignments on resources hold under other roles. -/
theorem Assignment.flatMap_holdings_mapRoles (f : String → String) (as : List Assignment) :
    ((as.filter fun a => a.resourceId ≠ "").map (·.mapRoles f)).flatMap holdings =
      ((as.flatMap holdings).filter fun h => h.resourceId ≠ "").map (·.mapRole f) := by
  have hresource : ∀ a : Assignment, (a.holdings.filter fun h => h.resourceId ≠ "") =
      if a.resourceId ≠ "" then a.holdings else [] := by
    intro a
    split_ifs with ha
    · rw [List.filter_eq_self]
      intro h hh
      simpa [resourceId_of_mem_holdings h hh] using ha
    · rw [List.filter_eq_nil_iff]
      intro h hh
      simpa [resourceId_of_mem_holdings h hh] using ha
  rw [List.flatMap_map, List.filter_flatMap, List.map_flatMap, flatMap_filter]
  simp only [hresource, holdings_mapRoles, decide_eq_true_eq]
  congr 1
  funext a
  split_ifs <;> rfl

/-! ## What is left out -/

/-- The assignment without its empty bindings. -/
def Assignment.pruned (a : Assignment) : Assignment :=
  { a with bindings := a.bindings.filter fun b => b.members ≠ [] }

/-- The assignments without empty bindings, and without those that have no binding then. -/
def Assignment.prune (as : List Assignment) : List Assignment :=
  (as.map Assignment.pruned).filter fun a => a.bindings ≠ []

theorem Binding.holdings_eq_nil_iff {x : String} {b : Binding} :
    b.holdings x = [] ↔ b.members = [] := List.map_eq_nil_iff

theorem Assignment.holdings_eq_nil_iff {a : Assignment} :
    a.holdings = [] ↔ a.pruned.bindings = [] := by
  unfold holdings pruned
  rw [List.flatMap_eq_nil_iff, List.filter_eq_nil_iff]
  simp only [Binding.holdings_eq_nil_iff, decide_eq_true_eq, not_not]

/-- Bindings with distinct roles and members are the groups of what they hold. -/
theorem Assignment.ofHoldings_holdings {a : Assignment}
    (hroles : (a.bindings.map Binding.role).Nodup) (hmembers : ∀ b ∈ a.bindings, b.members.Nodup) :
    Binding.ofHoldings a.holdings = a.pruned.bindings := by
  unfold Binding.ofHoldings holdings pruned
  rw [grouped_flatMap hroles fun b _ => Binding.role_of_mem_holdings, List.map_map]
  simp only [ne_eq, Binding.holdings_eq_nil_iff]
  apply (List.map_congr_left _).trans (List.map_id _)
  intro b hb
  have hsame : (b.holdings a.resourceId).map Holding.member = b.members := by
    unfold Binding.holdings
    rw [List.map_map]
    exact List.map_id _
  change Binding.mk b.role ((b.holdings a.resourceId).map Holding.member).eraseDups = b
  rw [hsame, eraseDups_eq_self (hmembers b (List.mem_of_mem_filter hb))]

/-- Assignments with distinct resources, roles and members only lose what is empty. -/
theorem Assignment.regrouped_eq_prune {as : List Assignment}
    (hresources : (as.map Assignment.resourceId).Nodup)
    (hroles : ∀ a ∈ as, (a.bindings.map Binding.role).Nodup)
    (hmembers : ∀ a ∈ as, ∀ b ∈ a.bindings, b.members.Nodup) : regrouped as = prune as := by
  unfold regrouped ofHoldings prune
  rw [grouped_flatMap hresources fun a _ => resourceId_of_mem_holdings, List.map_map,
    List.filter_map]
  simp only [ne_eq, holdings_eq_nil_iff]
  apply List.map_congr_left
  intro a ha
  have hmem : a ∈ as := List.mem_of_mem_filter ha
  change Assignment.mk a.resourceId (Binding.ofHoldings a.holdings) = a.pruned
  rw [ofHoldings_holdings (hroles a hmem) (hmembers a hmem)]
  rfl

namespace RoleTable

variable {t : RoleTable}

/-! ## Policies of holdings -/

theorem mem_actionsOf_iff {role : String} {a : Action} :
    a ∈ t.actionsOf role ↔ ∃ id ∈ t.granting role, a = ⟨role, id, false⟩ := by
  unfold actionsOf
  rw [List.mem_map]
  simp only [eq_comm]

/-- The actions of a role all have the role to which it leads. -/
theorem roleOf?_of_mem_actionsOf {role role' : String} (hrole : t.LeadsTo role role') {a : Action}
    (ha : a ∈ t.actionsOf role) : t.roleOf? a = some role' := by
  obtain ⟨id, hid, rfl⟩ := mem_actionsOf_iff.mp ha
  have hidentifier : Action.identifier ⟨role, id, false⟩ = id := if_neg (hrole.ne_empty id hid)
  unfold roleOf?
  rw [hidentifier]
  exact hrole.role?_eq id hid

theorem included_policyOf (h : Holding) : (t.policyOf h).included = t.actionsOf h.role := by
  unfold Policy.included
  apply List.filter_eq_self.mpr
  intro a ha
  obtain ⟨id, -, rfl⟩ := mem_actionsOf_iff.mp ha
  rfl

theorem resourceId_policyOf (h : Holding) : (t.policyOf h).resourceId = h.resourceId := by
  unfold policyOf Policy.ofMember Policy.resourceId Object.ofResource
  split_ifs with hempty
  · exact hempty.symm
  · rfl

theorem actionsOf_ne_nil {role role' : String} (hrole : t.LeadsTo role role') :
    t.actionsOf role ≠ [] := by
  unfold actionsOf
  rw [Ne, List.map_eq_nil_iff]
  exact hrole.granting_ne_nil

/-- Role bindings can express the policy of a holding if there is a resource. -/
theorem unmappable?_policyOf {h : Holding} {role : String} (hrole : t.LeadsTo h.role role) :
    (t.policyOf h).unmappable? = if h.resourceId = "" then some .noResource else none := by
  have hwholly : (t.policyOf h).isWhollyExcluded = false := by
    obtain ⟨a, ha⟩ := List.exists_mem_of_ne_nil _ (actionsOf_ne_nil hrole)
    have hincluded : a.exclude = false := by
      obtain ⟨id, -, rfl⟩ := mem_actionsOf_iff.mp ha
      rfl
    unfold Policy.isWhollyExcluded
    rw [Bool.and_eq_false_iff, List.all_eq_false]
    exact Or.inr ⟨a, ha, by simp [hincluded]⟩
  have hdenies : (t.policyOf h).denies = false := rfl
  unfold Policy.unmappable?
  simp [hwholly, hdenies, resourceId_policyOf]

/-- The policy of a holding on a resource grants what it holds, under the role to which its role
    leads. -/
theorem grant?_policyOf {h : Holding} {role : String} (hresource : h.resourceId ≠ "")
    (hrole : t.LeadsTo h.role role) :
    t.grant? (t.policyOf h) = .ok (some { h with role }.grant) := by
  have hmappable : (t.policyOf h).unmappable? = none := by
    rw [unmappable?_policyOf hrole, if_neg hresource]
  have hmapped : t.unmapped? (t.actionsOf h.role) = none := by
    rw [unmapped?_eq_none_iff]
    intro a ha
    rw [roleOf?_of_mem_actionsOf hrole ha]
    rfl
  have hroles : (t.roles (t.actionsOf h.role)).eraseDups = [role] := by
    unfold roles
    rw [List.filterMap_congr fun a ha => roleOf?_of_mem_actionsOf hrole ha,
      List.filterMap_eq_map', List.map_eq_flatMap,
      eraseDups_flatMap_const [role] (actionsOf_ne_nil hrole), eraseDups_eq_self (by simp)]
  rw [grant?_eq hmappable, included_policyOf, ifMapped_eq_ok_iff]
  refine ⟨hmapped, ?_⟩
  unfold grantOf? grantOf
  rw [included_policyOf, if_neg (actionsOf_ne_nil hrole), hroles, resourceId_policyOf]
  rfl

/-- The policies of holdings have the assignments of those on a resource, under the roles to which
    their roles lead. -/
theorem assignments_map_policyOf {hs : List Holding} {f : String → String}
    (h : ∀ x ∈ hs, t.LeadsTo x.role (f x.role)) :
    t.assignments (hs.map t.policyOf) =
      .ok (Assignment.ofHoldings ((hs.filter fun x => x.resourceId ≠ "").map (·.mapRole f))) := by
  have hgrants : t.grants (hs.map t.policyOf) =
      .ok (((hs.filter fun x => x.resourceId ≠ "").map (·.mapRole f)).map Holding.grant) := by
    induction hs with
    | nil => rfl
    | cons x hs ih =>
      obtain ⟨hrole, hs⟩ := List.forall_mem_cons.mp h
      rw [List.map_cons, grants, ih hs]
      by_cases hresource : x.resourceId = ""
      · have hunmappable : (t.policyOf x).unmappable?.isSome := by
          rw [unmappable?_policyOf hrole, if_pos hresource]
          rfl
        rw [grant?_of_unmappable hunmappable, List.filter_cons_of_neg (by simpa using hresource)]
        rfl
      · rw [grant?_policyOf hresource hrole, List.filter_cons_of_pos (by simpa using hresource)]
        rfl
  unfold assignments
  rw [hgrants, ← Assignment.ofGrants_map_grant]
  rfl

/-! ## There and back -/

/-- Assignments whose roles lead to roles have policies. These have the assignments on a resource
    regrouped, under the roles to which their roles lead. -/
theorem policies_assignments_mapRoles {as : List Assignment} {f : String → String}
    (hrole : ∀ a ∈ as, ∀ b ∈ a.bindings, t.LeadsTo b.role (f b.role)) :
    ∃ ps, t.policies as = .ok ps ∧
      t.assignments ps = .ok (Assignment.regrouped
        ((as.filter fun a => a.resourceId ≠ "").map (·.mapRoles f))) := by
  refine ⟨(as.flatMap fun a => a.holdings.eraseDups).map t.policyOf, ?_, ?_⟩
  · rw [policies_eq, List.map_flatMap]
    apply ifKnown_of_forall
    intro r hr
    obtain ⟨a, ha, hr⟩ := List.mem_flatMap.mp hr
    obtain ⟨b, hb, rfl⟩ := List.mem_map.mp hr
    exact (hrole a ha b hb).granting_ne_nil
  · have hheld : ∀ h ∈ as.flatMap (fun a => a.holdings.eraseDups), t.LeadsTo h.role (f h.role) := by
      intro h hh
      obtain ⟨a, ha, hh⟩ := List.mem_flatMap.mp hh
      obtain ⟨-, b, hb, hr, -⟩ := Assignment.mem_holdings_iff.mp (List.mem_eraseDups.mp hh)
      exact hr ▸ hrole a ha b hb
    rw [assignments_map_policyOf hheld, Assignment.regrouped, Assignment.flatMap_holdings_mapRoles,
      ← Assignment.ofHoldings_eraseDups, ← eraseDups_map_eraseDups, ← filter_eraseDups,
      eraseDups_flatMap_eraseDups, filter_eraseDups, eraseDups_map_eraseDups,
      Assignment.ofHoldings_eraseDups]

/-- Assignments on resources whose roles lead back have policies, and these have the same
    assignments regrouped. -/
theorem policies_assignments {as : List Assignment} (hresource : ∀ a ∈ as, a.resourceId ≠ "")
    (hrole : ∀ a ∈ as, ∀ b ∈ a.bindings, t.LeadsTo b.role b.role) :
    ∃ ps, t.policies as = .ok ps ∧ t.assignments ps = .ok (Assignment.regrouped as) := by
  have hsame : (as.filter fun a => a.resourceId ≠ "").map (·.mapRoles id) = as := by
    rw [List.filter_eq_self.mpr (by simpa using hresource),
      List.map_congr_left fun a _ => Assignment.mapRoles_eq_self fun _ _ => rfl, List.map_id']
  have hmoved := policies_assignments_mapRoles (f := id) hrole
  rwa [hsame] at hmoved

/-- **Round trip.** Assignments on resources, with roles that actions have, have policies. The
    assignments of these regroup the given ones by resource and role. Assignments that policies have
    are given back, but for empty bindings and assignments. -/
theorem assignments_round_trip {t : RoleTable} (ht : t.Accepted) :
    (∀ as : List Assignment, (∀ a ∈ as, a.resourceId ≠ "") →
      (∀ a ∈ as, ∀ b ∈ a.bindings, ∃ action, t.role? action = some b.role) →
      ∃ ps as', t.policies as = .ok ps ∧ t.assignments ps = .ok as' ∧ Regroups as as') ∧
    ∀ ps as, t.assignments ps = .ok as →
      ∃ back, t.policies as = .ok back ∧ t.assignments back = .ok (Assignment.prune as) := by
  have hback : ∀ {role action}, t.role? action = some role → t.LeadsTo role role :=
    leadsTo_of_role? (accepted_iff.mp ht)
  constructor
  · intro as hresource hrole
    obtain ⟨ps, hps, hassignments⟩ := policies_assignments hresource fun a ha b hb =>
      (hrole a ha b hb).elim fun _ => hback
    exact ⟨ps, _, hps, hassignments, regroups_regrouped as⟩
  · intro ps as h
    have hinduces := induces_of_assignments h
    have hrole : ∀ a ∈ as, ∀ b ∈ a.bindings, t.LeadsTo b.role b.role := by
      intro a ha b hb
      obtain ⟨p, -, -, action, -, -, haction⟩ :=
        (hinduces.bound_iff a.resourceId b.role).mp ⟨a, ha, rfl, b, hb, rfl⟩
      exact hback haction
    obtain ⟨back, hpolicies, hassignments⟩ :=
      policies_assignments hinduces.resourceId_ne hrole
    rw [Assignment.regrouped_eq_prune hinduces.resourceIds_nodup hinduces.roles_nodup
      hinduces.members_nodup] at hassignments
    exact ⟨back, hpolicies, hassignments⟩

/-- Two assignments of an album that repeat a role and a member, with a role that is carried and
    that nobody has. -/
theorem assignments_round_trip_album :
    let t : RoleTable := ⟨[⟨"view", "viewer"⟩, ⟨"list", "viewer"⟩], some "gcp:"⟩
    let as : List Assignment :=
      [⟨"album", [⟨"viewer", ["user:alice"]⟩, ⟨"owner", []⟩]⟩,
       ⟨"album", [⟨"viewer", ["user:bob", "user:alice"]⟩]⟩]
    let as' : List Assignment := [⟨"album", [⟨"viewer", ["user:alice", "user:bob"]⟩]⟩]
    (∃ ps, t.policies as = .ok ps ∧ t.assignments ps = .ok as') ∧ Regroups as as' ∧
      ∃ back, t.policies as' = .ok back ∧ t.assignments back = .ok as' := by
  intro t as as'
  have hpairs : ofPairs [("view", "viewer"), ("list", "viewer")] = .ok ⟨t.rows, none⟩ := by decide
  have ht : t.Accepted := .withPassthrough "gcp:" (.ofPairs hpairs)
  have hviewer : t.role? "view" = some "viewer" := by decide
  have howner : t.role? "gcp:owner" = some "owner" := by decide
  obtain ⟨ps, found, hps, hfound, hregroups⟩ := (assignments_round_trip ht).1 as (by decide)
    (by simpa [as] using ⟨⟨⟨_, hviewer⟩, ⟨_, howner⟩⟩, ⟨_, hviewer⟩⟩)
  have hvalue : (t.policies as >>= t.assignments) = .ok as' := by decide
  rw [hps] at hvalue
  obtain rfl : as' = found := Except.ok.inj (hvalue.symm.trans hfound)
  exact ⟨⟨ps, hps, hfound⟩, hregroups, (assignments_round_trip ht).2 ps as' hfound⟩

end RoleTable

end AccessPolicy
