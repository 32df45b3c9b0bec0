import AccessPolicy.Binding.Mapping
import AccessPolicy.Proofs.Binding.Lookup
import AccessPolicy.Proofs.Distinct
import AccessPolicy.Proofs.Outcome

/-!
# Policies of assignments

An assignment holds that members have roles on its resource. Its policies are one for each of these
holdings, in the order in which they first come, and the first role that no action grants decides
about an error, with or without members.

* `Holding`: a member has a role on a resource.
* `newMembers_eq`: the members that are not there yet.
* `expandBindings_eq`: the policies of bindings after others.
* `policies_eq`: the policies of assignments.
* `GrantedBy`: the actions of a role, and `IsPolicyOf`: what the policy of a holding says.
* `policies_spec`: when assignments have policies, and which ones.
-/

namespace AccessPolicy

open Outcome

/-! ## Holdings -/

/-- A member has a role on a resource. -/
structure Holding where
  resourceId : String
  role : String
  member : String
deriving DecidableEq, Repr

/-- What a binding on a resource holds. -/
def Binding.holdings (resourceId : String) (b : Binding) : List Holding :=
  b.members.map fun m => ⟨resourceId, b.role, m⟩

/-- What an assignment holds. -/
def Assignment.holdings (a : Assignment) : List Holding :=
  a.bindings.flatMap fun b => b.holdings a.resourceId

theorem Binding.mem_holdings_iff {x : String} {b : Binding} {h : Holding} :
    h ∈ b.holdings x ↔ h.resourceId = x ∧ h.role = b.role ∧ h.member ∈ b.members := by
  unfold holdings
  rw [List.mem_map]
  constructor
  · rintro ⟨m, hm, rfl⟩
    exact ⟨rfl, rfl, hm⟩
  · rintro ⟨rfl, hrole, hm⟩
    exact ⟨h.member, hm, by rw [← hrole]⟩

/-- The members of a binding that are not there yet, as holdings. -/
theorem Binding.eraseDups_filter_holdings (x : String) (b : Binding) (p : Holding → Bool) :
    ((b.holdings x).filter p).eraseDups =
      (b.members.filter fun m => p ⟨x, b.role, m⟩).eraseDups.map fun m => ⟨x, b.role, m⟩ := by
  unfold holdings
  rw [List.filter_map, eraseDups_map]
  · rfl
  · intro m m' h
    exact (Holding.mk.inj h).2.2

theorem newMembers_eq (seen ms : List String) :
    newMembers seen ms = (ms.filter fun m => m ∉ seen).eraseDups := by
  induction ms generalizing seen with
  | nil => rfl
  | cons m ms ih =>
    rw [newMembers]
    by_cases hm : m ∈ seen
    · rw [if_pos hm, ih, List.filter_cons_of_neg (by simpa using hm)]
    · rw [if_neg hm, ih, List.filter_cons_of_pos (by simpa using hm), List.eraseDups_cons,
        List.filter_filter]
      congr 2
      apply List.filter_congr
      intro m' _
      by_cases h : m' = m <;> simp [h]

theorem mem_membersOf_iff {x role m : String} {before : List Binding} :
    m ∈ membersOf role before ↔ ⟨x, role, m⟩ ∈ before.flatMap fun b => b.holdings x := by
  unfold membersOf
  simp only [List.mem_flatMap, List.mem_filter, Binding.mem_holdings_iff, decide_eq_true_eq,
    true_and, and_assoc, eq_comm (a := role)]

namespace RoleTable

/-! ## Roles that are known -/

variable (t : RoleTable)

/-- The outcome of an operation on roles: the result, if actions grant all of them. -/
def ifKnown {α : Type} (roles : List String) (result : α) : Except Error α :=
  unlessFound (fun r => t.granting r = []) .unknownRole roles result

/-- The actions of the policies of a role. -/
def actionsOf (role : String) : List Action :=
  (t.granting role).map fun id => { name := role, uri := id }

/-- The policy of a holding. -/
def policyOf (h : Holding) : Policy :=
  Policy.ofMember h.resourceId (t.actionsOf h.role) h.member

variable {t}

/-- Two operations in a row succeed if all roles of both are known, and otherwise fail at the first
    that is not. -/
theorem ifKnown_append {α β γ : Type} (rs rs' : List String) (x : α) (y : β) (f : α → β → γ) :
    (t.ifKnown rs x >>= fun a => t.ifKnown rs' y >>= fun b => pure (f a b)) =
      t.ifKnown (rs ++ rs') (f x y) :=
  unlessFound_append _ _ rs rs' x y f

theorem ifKnown_of_forall {α : Type} {roles : List String} (h : ∀ r ∈ roles, t.granting r ≠ [])
    (x : α) : t.ifKnown roles x = .ok x := by
  unfold ifKnown unlessFound
  rw [List.find?_eq_none.mpr (by simpa using h)]

theorem ifKnown_eq_ok_iff {α : Type} {roles : List String} {x y : α} :
    t.ifKnown roles x = .ok y ↔ (∀ r ∈ roles, t.granting r ≠ []) ∧ x = y := by
  constructor
  · intro h
    unfold ifKnown unlessFound at h
    split at h
    · cases h
    · rename_i hnone
      exact ⟨by simpa using List.find?_eq_none.mp hnone, Except.ok.inj h⟩
  · rintro ⟨hknown, rfl⟩
    exact ifKnown_of_forall hknown x

theorem policyActions_eq (role : String) :
    t.policyActions role = t.ifKnown [role] (t.actionsOf role) := by
  unfold policyActions ifKnown unlessFound actionsOf
  rw [actions_eq]
  by_cases h : t.granting role = []
  · simp [h, bind, Except.bind]
  · simp [h, bind, Except.bind, pure, Except.pure]

/-! ## Expansion -/

/-- Bindings of a resource give a policy for each holding beyond those of the bindings before
    them. -/
theorem expandBindings_eq (x : String) (before bs : List Binding) :
    t.expandBindings x before bs =
      t.ifKnown (bs.map Binding.role)
        (((bs.flatMap fun b => b.holdings x).filter fun h =>
          h ∉ before.flatMap fun b => b.holdings x).eraseDups.map t.policyOf) := by
  induction bs generalizing before with
  | nil => rfl
  | cons b bs ih =>
    have hfirst : (newMembers (membersOf b.role before) b.members).map
          (Policy.ofMember x (t.actionsOf b.role)) =
        ((b.holdings x).filter fun h =>
          h ∉ before.flatMap fun b => b.holdings x).eraseDups.map t.policyOf := by
      rw [Binding.eraseDups_filter_holdings, List.map_map, newMembers_eq]
      simp only [mem_membersOf_iff (x := x)]
      rfl
    rw [expandBindings, policyActions_eq, ih, List.map_cons, List.flatMap_cons,
      eraseDups_filter_append, List.map_append, ← hfirst, List.flatMap_append,
      List.flatMap_singleton]
    exact ifKnown_append [b.role] _ _ _ fun actions others =>
      (newMembers (membersOf b.role before) b.members).map (Policy.ofMember x actions) ++ others

/-- An assignment gives a policy for each of its holdings. -/
theorem expand_eq (a : Assignment) :
    t.expand a =
      t.ifKnown (a.bindings.map Binding.role) (a.holdings.eraseDups.map t.policyOf) := by
  unfold expand
  rw [expandBindings_eq]
  simp [Assignment.holdings]

/-- Assignments give the policies of each of them. -/
theorem policies_eq (as : List Assignment) :
    t.policies as =
      t.ifKnown (as.flatMap fun a => a.bindings.map Binding.role)
        (as.flatMap fun a => a.holdings.eraseDups.map t.policyOf) := by
  induction as with
  | nil => rfl
  | cons a as ih =>
    rw [policies, expand_eq, ih]
    exact ifKnown_append _ _ _ _ List.append

/-- Assignments have policies if actions grant all roles, also those that nobody has. -/
theorem policies_eq_ok_iff {as : List Assignment} {ps : PolicySet} :
    t.policies as = .ok ps ↔
      (∀ a ∈ as, ∀ b ∈ a.bindings, t.granting b.role ≠ []) ∧
        as.flatMap (fun a => a.holdings.eraseDups.map t.policyOf) = ps := by
  rw [policies_eq, ifKnown_eq_ok_iff]
  simp only [List.forall_mem_flatMap, List.forall_mem_map]

/-! ## The whole expansion -/

/-- The actions that grant a role: those of all its rows, in the order of the table. A role without
    a row has only the action that carries it. -/
inductive GrantedBy (t : RoleTable) (role : String) : List String → Prop where
  | rows : (∃ r ∈ t.rows, r.role = role) →
    GrantedBy t role ((t.rows.filter fun r => r.role = role).map RoleRow.action)
  | carried {beginning : String} :
    (∀ r ∈ t.rows, r.role ≠ role) → t.passthrough = some beginning →
    GrantedBy t role [beginning ++ role]

/-- The table has actions that grant a role: in a row, or since it carries all roles. -/
def Knows (t : RoleTable) (role : String) : Prop :=
  (∃ r ∈ t.rows, r.role = role) ∨ t.passthrough ≠ none

/-- A policy says of a holding who has which role on which resource, and nothing else. It names all
    actions of the role, none of them excluded. -/
structure IsPolicyOf (t : RoleTable) (h : Holding) (p : Policy) : Prop where
  subject_eq : p.subject = { members := [h.member] }
  /-- The actions stand in the order of the table, under the name of the role. -/
  actions_eq : ∃ ids, t.GrantedBy h.role ids ∧ p.actions = ids.map fun id => ⟨h.role, id, false⟩
  /-- Without a resource there is no object. -/
  object_eq : p.object =
    if h.resourceId = "" then none else some { assetId := some h.resourceId, pathSpec := none }
  id_eq : p.id = none
  info_eq : p.info = {}
  condition_eq : p.condition = none

theorem granting_of_row {role : String} (h : ∃ r ∈ t.rows, r.role = role) :
    t.granting role = t.rowActions role ∧ t.rowActions role ≠ [] := by
  have hne : t.rowActions role ≠ [] := by
    obtain ⟨r, hr, hrole⟩ := h
    exact fun hnil => rowActions_eq_nil_iff.mp hnil r hr hrole
  exact ⟨if_neg hne, hne⟩

theorem granting_of_no_row {role : String} (h : ∀ r ∈ t.rows, r.role ≠ role) :
    t.granting role = (t.passthrough.map (· ++ role)).toList :=
  if_pos (rowActions_eq_nil_iff.mpr h)

theorem grantedBy_iff {role : String} {ids : List String} :
    t.GrantedBy role ids ↔ t.granting role ≠ [] ∧ t.granting role = ids := by
  constructor
  · rintro (hrow | ⟨hnone, hcarried⟩)
    · obtain ⟨hgranting, hne⟩ := granting_of_row hrow
      exact ⟨hgranting ▸ hne, hgranting⟩
    · rw [granting_of_no_row hnone, hcarried]
      exact ⟨List.cons_ne_nil _ _, rfl⟩
  · rintro ⟨hne, rfl⟩
    by_cases hrow : ∃ r ∈ t.rows, r.role = role
    · rw [(granting_of_row hrow).1]
      exact .rows hrow
    · have hnone : ∀ r ∈ t.rows, r.role ≠ role := fun r hr hrole => hrow ⟨r, hr, hrole⟩
      rw [granting_of_no_row hnone] at hne ⊢
      cases hcarried : t.passthrough with
      | none => simp [hcarried] at hne
      | some beginning => exact .carried hnone hcarried

theorem knows_iff {role : String} : t.Knows role ↔ t.granting role ≠ [] := by
  unfold Knows
  by_cases hrow : ∃ r ∈ t.rows, r.role = role
  · obtain ⟨hgranting, hne⟩ := granting_of_row hrow
    exact iff_of_true (Or.inl hrow) (hgranting ▸ hne)
  · rw [or_iff_right hrow, granting_of_no_row fun r hr hrole => hrow ⟨r, hr, hrole⟩]
    cases t.passthrough <;> simp

theorem actions_eq_ok_iff_grantedBy {role : String} {ids : List String} :
    t.actions role = .ok ids ↔ t.GrantedBy role ids := by
  rw [actions_eq_ok_iff, grantedBy_iff]

theorem actions_eq_error_iff {role : String} {e : Error} :
    t.actions role = .error e ↔ ¬ t.Knows role ∧ e = .unknownRole role := by
  rw [actions_eq, knows_iff]
  split_ifs with h <;> simp [h, eq_comm]

/-- The policy of a holding whose role is known says what it should. -/
theorem isPolicyOf_policyOf {h : Holding} (hknown : t.Knows h.role) :
    t.IsPolicyOf h (t.policyOf h) where
  subject_eq := rfl
  actions_eq := ⟨t.granting h.role, grantedBy_iff.mpr ⟨knows_iff.mp hknown, rfl⟩, rfl⟩
  object_eq := rfl
  id_eq := rfl
  info_eq := rfl
  condition_eq := rfl

/-- An operation on roles fails at the first role that is not known. -/
theorem ifKnown_eq_error_iff {α : Type} {roles : List String} {x : α} {e : Error} :
    t.ifKnown roles x = .error e ↔ ∃ role before after, roles = before ++ role :: after ∧
      (∀ r ∈ before, t.Knows r) ∧ ¬ t.Knows role ∧ e = .unknownRole role := by
  have hfirst : ∀ role, roles.find? (fun r => t.granting r = []) = some role ↔
      ∃ before after, roles = before ++ role :: after ∧
        (∀ r ∈ before, t.Knows r) ∧ ¬ t.Knows role := by
    intro role
    rw [List.find?_eq_some_iff_append]
    simp only [knows_iff, decide_eq_true_eq, Bool.not_eq_true', decide_eq_false_iff_not, not_not]
    constructor
    · rintro ⟨hunknown, before, after, hroles, hbefore⟩
      exact ⟨before, after, hroles, hbefore, hunknown⟩
    · rintro ⟨before, after, hroles, hbefore, hunknown⟩
      exact ⟨hunknown, before, after, hroles, hbefore⟩
  unfold ifKnown unlessFound
  cases hfind : roles.find? fun r => t.granting r = [] with
  | none =>
    simp only [reduceCtorEq, false_iff, not_exists]
    rintro role before after ⟨hroles, hbefore, hunknown, -⟩
    rw [(hfirst role).mpr ⟨before, after, hroles, hbefore, hunknown⟩] at hfind
    cases hfind
  | some role =>
    simp only [Except.error.injEq]
    constructor
    · rintro rfl
      obtain ⟨before, after, hsplit⟩ := (hfirst role).mp hfind
      exact ⟨role, before, after, hsplit.1, hsplit.2.1, hsplit.2.2, rfl⟩
    · rintro ⟨role', before, after, hroles, hbefore, hunknown, rfl⟩
      rw [(hfirst role').mpr ⟨before, after, hroles, hbefore, hunknown⟩] at hfind
      rw [Option.some.inj hfind]

/-- **Expansion.** Assignments have no policies exactly if a binding, with or without members, has a
    role that is not known, and then the first such role is reported. Otherwise their policies are,
    assignment by assignment, one for each distinct role and member, in the order in which these
    first come. The roles that are not known are those that no row has, in a table that carries
    none. -/
theorem policies_spec (t : RoleTable) (as : List Assignment) :
    (∀ role, (∀ ids, t.actions role = .ok ids ↔ t.GrantedBy role ids) ∧
      ∀ e, t.actions role = .error e ↔ ¬ t.Knows role ∧ e = ⟨.unknownRole, some role⟩) ∧
    ((∃ e, t.policies as = .error e) ↔ ∃ a ∈ as, ∃ b ∈ a.bindings, ¬ t.Knows b.role) ∧
    (∀ e, t.policies as = .error e ↔
      ∃ role before after, (as.flatMap Assignment.bindings).map Binding.role =
        before ++ role :: after ∧
        (∀ r ∈ before, t.Knows r) ∧ ¬ t.Knows role ∧ e = ⟨.unknownRole, some role⟩) ∧
    ∀ ps, t.policies as = .ok ps →
      List.Forall₂ t.IsPolicyOf (as.flatMap fun a => a.holdings.eraseDups) ps := by
  have hroles : (as.flatMap fun a => a.bindings.map Binding.role) =
      (as.flatMap Assignment.bindings).map Binding.role := List.map_flatMap.symm
  refine ⟨fun role => ⟨fun ids => actions_eq_ok_iff_grantedBy, fun e => actions_eq_error_iff⟩,
    ?_, fun e => ?_, fun ps hps => ?_⟩
  · constructor
    · rintro ⟨e, he⟩
      by_contra hknown
      simp only [not_exists, not_and, not_not, knows_iff] at hknown
      rw [policies_eq_ok_iff.mpr ⟨hknown, rfl⟩] at he
      cases he
    · rintro ⟨a, ha, b, hb, hunknown⟩
      cases hpolicies : t.policies as with
      | error e => exact ⟨e, rfl⟩
      | ok ps =>
        have hknown := (policies_eq_ok_iff.mp hpolicies).1 a ha b hb
        exact absurd (knows_iff.mpr hknown) hunknown
  · rw [policies_eq, hroles]
    exact ifKnown_eq_error_iff
  · obtain ⟨hknown, rfl⟩ := policies_eq_ok_iff.mp hps
    rw [← List.map_flatMap, List.forall₂_map_right_iff, List.forall₂_same]
    intro h hh
    obtain ⟨a, ha, hh⟩ := List.mem_flatMap.mp hh
    obtain ⟨b, hb, hmem⟩ := List.mem_flatMap.mp (List.mem_eraseDups.mp hh)
    apply isPolicyOf_policyOf
    rw [(Binding.mem_holdings_iff.mp hmem).2.1]
    exact knows_iff.mpr (hknown a ha b hb)

/-- An album and the resource without a name. A role comes twice with the same member, and one is
    carried. In a table that carries none, the first role without a row is reported, though nobody
    has it. -/
theorem policies_spec_album :
    let rows : List RoleRow := [⟨"view", "viewer"⟩, ⟨"edit", "editor"⟩, ⟨"list", "viewer"⟩]
    let album : Assignment :=
      ⟨"album",
        [⟨"viewer", ["user:alice", "user:bob"]⟩, ⟨"owner", ["user:carol"]⟩,
         ⟨"viewer", ["user:alice"]⟩]⟩
    let unnamed : Assignment := ⟨"", [⟨"editor", ["user:bob", "user:bob"]⟩]⟩
    let viewing : List Action := [⟨"viewer", "view", false⟩, ⟨"viewer", "list", false⟩]
    let ps : PolicySet :=
      [{ subject := { members := ["user:alice"] }, actions := viewing
         object := some ⟨some "album", none⟩ },
       { subject := { members := ["user:bob"] }, actions := viewing
         object := some ⟨some "album", none⟩ },
       { subject := { members := ["user:carol"] }, actions := [⟨"owner", "gcp:owner", false⟩]
         object := some ⟨some "album", none⟩ },
       { subject := { members := ["user:bob"] }, actions := [⟨"editor", "edit", false⟩] }]
    RoleTable.policies ⟨rows, some "gcp:"⟩ [album, unnamed] = .ok ps ∧
      List.Forall₂ (IsPolicyOf ⟨rows, some "gcp:"⟩)
        [⟨"album", "viewer", "user:alice"⟩, ⟨"album", "viewer", "user:bob"⟩,
         ⟨"album", "owner", "user:carol"⟩, ⟨"", "editor", "user:bob"⟩] ps ∧
      RoleTable.policies ⟨rows, none⟩ [⟨"album", [⟨"viewer", []⟩, ⟨"owner", []⟩]⟩, album] =
        .error ⟨.unknownRole, some "owner"⟩ := by
  intro rows album unnamed viewing ps
  have hps : RoleTable.policies ⟨rows, some "gcp:"⟩ [album, unnamed] = .ok ps := by decide
  refine ⟨hps, (policies_spec _ _).2.2.2 ps hps, ((policies_spec _ _).2.2.1 _).mpr ?_⟩
  exact ⟨"owner", ["viewer"], ["viewer", "owner", "viewer"], rfl, by simp [Knows, rows],
    by simp [Knows, rows], rfl⟩

end RoleTable

end AccessPolicy
