import AccessPolicy.Proofs.Binding.Induced

/-!
# What becomes of each policy

A policy that role bindings cannot express is reported, and a policy that grants an action is bound
on its resource. A policy without actions is neither, if it is on a resource and does not deny: it
leaves no trace.

* `Policy.isIdle`: a policy without actions that role bindings could express.
* `RoleTable.filter_isDropped_assignmentEvents`: the policies that a run reports as dropped.
* `RoleTable.isBound_of_included`: the policies that are bound.
* `RoleTable.assignments_filter_isIdle`, `PolicySet.unmappable_filter_isIdle`: idle policies leave
  no trace.
* `RoleTable.reported_or_bound`: what becomes of each policy.
* `RoleTable.album_lost`: a policy that is lost.
-/

namespace AccessPolicy

open Outcome

/-- An event reports a policy that has no form as role bindings. -/
def Event.isDropped (e : Event) : Bool := e.topic = ("BindMap", some "Dropped")

/-! ## Policies -/

namespace Policy

variable {p : Policy}

/-- The report on a policy that role bindings cannot express. -/
def dropping? (p : Policy) (index : Nat) : Option Event :=
  p.unmappable?.map fun why => .dropped (p.label index) why.reason

/-- A policy has no actions, though role bindings could express it. -/
def isIdle (p : Policy) : Bool := p.actions.isEmpty && p.unmappable?.isNone

/-- The resource of a policy has a binding with all of its members. -/
def IsBound (p : Policy) (as : List Assignment) : Prop :=
  ∃ a ∈ as, a.resourceId = p.resourceId ∧
    ∃ b ∈ a.bindings, ∀ m ∈ p.subject.members, m ∈ b.members

theorem isIdle_iff : p.isIdle = true ↔ p.actions = [] ∧ p.unmappable? = none := by
  unfold isIdle
  rw [Bool.and_eq_true, List.isEmpty_iff, Option.isNone_iff_eq_none]

/-- A policy that role bindings can express has an included action unless it has no actions at
    all. -/
theorem included_eq_nil_iff (h : p.unmappable? = none) : p.included = [] ↔ p.actions = [] := by
  have hwholly : ¬ p.isWhollyExcluded = true := fun hwholly =>
    unmappable?_ne_none_iff.mpr (Or.inl hwholly) h
  constructor
  · intro hincluded
    by_contra hactions
    refine hwholly (isWhollyExcluded_iff.mpr ⟨hactions, fun a ha => ?_⟩)
    rw [← Bool.not_eq_false]
    exact fun hexclude => included_ne_nil_iff.mpr ⟨a, ha, hexclude⟩ hincluded
  · intro hactions
    rw [included, hactions, List.filter_nil]

theorem filter_isDropped_bindingLosses (p : Policy) (index : Nat) :
    (p.bindingLosses index).filter Event.isDropped = (p.dropping? index).toList := by
  unfold bindingLosses dropping?
  cases p.unmappable? with
  | some why => rfl
  | none => cases p.condition <;> simp [Event.isDropped, Event.topic]

end Policy

namespace PolicySet

/-- No idle policy is reported as unmappable. -/
theorem unmappable_filter_isIdle (ps : PolicySet) :
    unmappable (ps.filter fun p => !p.isIdle) = ps.unmappable := by
  unfold unmappable
  rw [List.filter_filter]
  apply List.filter_congr
  intro p _
  cases hun : p.unmappable? <;> simp [Policy.isIdle, hun]

end PolicySet

namespace RoleTable

variable {t : RoleTable} {ps : PolicySet} {as : List Assignment}

/-! ## Reports -/

/-- Each policy that role bindings cannot express is reported as dropped, and no other one. -/
theorem filter_isDropped_lossEvents {gs : List Grant} (h : t.grants ps = .ok gs) (index : Nat) :
    (t.lossEvents index ps).filter Event.isDropped =
      (ps.zipIdx index).filterMap fun e => e.1.dropping? e.2 := by
  induction ps generalizing gs index with
  | nil => rfl
  | cons p ps ih =>
    rw [grants, bind_eq_ok_iff] at h
    obtain ⟨g, hg, h⟩ := h
    obtain ⟨gs', hgs', -⟩ := bind_eq_ok_iff.mp h
    rw [lossEvents, hg, List.filter_append, Policy.filter_isDropped_bindingLosses, ih hgs',
      List.zipIdx_cons, List.filterMap_cons]
    cases p.dropping? index <;> rfl

theorem filter_isDropped_assignmentEvents (h : t.assignments ps = .ok as) :
    (t.assignmentEvents ps).filter Event.isDropped =
      ps.zipIdx.filterMap fun e => e.1.dropping? e.2 := by
  obtain ⟨gs, hgs, -⟩ := bind_eq_ok_iff.mp h
  have hassigned : (as.map fun a =>
      Event.assigned a.resourceId a.bindings.length).filter Event.isDropped = [] := by
    rw [List.filter_eq_nil_iff, List.forall_mem_map]
    exact fun a _ => by simp [Event.isDropped, Event.topic]
  rw [assignmentEvents, h, List.filter_append, filter_isDropped_lossEvents hgs, hassigned,
    List.append_nil]

/-! ## Bindings -/

/-- A policy that role bindings can express is bound with the role of an included action. -/
theorem isBound_of_included (h : t.assignments ps = .ok as) {p : Policy} (hp : p ∈ ps)
    (hmappable : p.unmappable? = none) (hincluded : p.included ≠ []) : p.IsBound as := by
  rw [assignments_eq, ifMapped_eq_ok_iff] at h
  obtain ⟨hmapped, rfl⟩ := h
  have hmem : p ∈ ps.representable := PolicySet.mem_representable_iff.mpr
    ⟨hp, fun hun => (PolicySet.mem_unmappable_iff.mp hun).2 hmappable⟩
  obtain ⟨action, haction⟩ := List.exists_mem_of_ne_nil _ hincluded
  obtain ⟨role, hrole⟩ := Option.isSome_iff_exists.mp
    (unmapped?_eq_none_iff.mp hmapped action (List.mem_flatMap.mpr ⟨p, hmem, haction⟩))
  obtain ⟨hmention, hexclude⟩ := Policy.mem_included_iff.mp haction
  have hgives : t.gives p p.resourceId role := ⟨rfl, action, hmention, hexclude, hrole⟩
  obtain ⟨a, ha, hresource, b, hb, rfl⟩ := exists_of_gives hmem hgives
  refine ⟨a, ha, hresource, b, hb, fun m hm => (mem_members_iff ha hb).mpr ⟨p, hmem, ?_, hm⟩⟩
  rwa [hresource]

/-! ## Idle policies -/

theorem grant?_of_isIdle {p : Policy} (h : p.isIdle = true) : t.grant? p = .ok none := by
  obtain ⟨hactions, hmappable⟩ := Policy.isIdle_iff.mp h
  have hincluded : p.included = [] := (Policy.included_eq_nil_iff hmappable).mpr hactions
  rw [grant?_eq hmappable, grantOf?, if_pos hincluded, hincluded]
  rfl

/-- An idle policy has no action to look up and adds no grant. -/
theorem grants_filter_isIdle (ps : PolicySet) :
    t.grants (ps.filter fun p => !p.isIdle) = t.grants ps := by
  induction ps with
  | nil => rfl
  | cons p ps ih =>
    cases hp : p.isIdle with
    | true =>
      rw [List.filter_cons_of_neg (by simp [hp]), ih, grants, grant?_of_isIdle hp]
      exact (bind_pure (t.grants ps)).symm
    | false => rw [List.filter_cons_of_pos (by simp [hp]), grants, grants, ih]

theorem assignments_filter_isIdle (ps : PolicySet) :
    t.assignments (ps.filter fun p => !p.isIdle) = t.assignments ps := by
  rw [assignments, grants_filter_isIdle, assignments]

/-! ## Each policy -/

/-- **What becomes of each policy.** Where policies are mapped to assignments, each of them that is
    not idle is reported as unmappable or is bound. Those that are unmappable are reported as
    dropped, each once and no other policy. Idle policies are not reported, and leaving them out
    changes neither the assignments nor what is reported as unmappable. -/
theorem reported_or_bound (h : t.assignments ps = .ok as) :
    (∀ p ∈ ps, p.isIdle = false → p ∈ ps.unmappable ∨ p.IsBound as) ∧
      (t.assignmentEvents ps).filter Event.isDropped =
        ps.zipIdx.filterMap (fun e => e.1.dropping? e.2) ∧
      (∀ p ∈ ps, p.isIdle = true → p ∉ ps.unmappable) ∧
      t.assignments (ps.filter fun p => !p.isIdle) = .ok as ∧
      PolicySet.unmappable (ps.filter fun p => !p.isIdle) = ps.unmappable := by
  refine ⟨?_, filter_isDropped_assignmentEvents h, ?_, ?_, PolicySet.unmappable_filter_isIdle ps⟩
  · intro p hp hidle
    by_cases hmappable : p.unmappable? = none
    · have hactions : p.actions ≠ [] := fun hactions => by
        rw [Policy.isIdle_iff.mpr ⟨hactions, hmappable⟩] at hidle
        cases hidle
      exact Or.inr (isBound_of_included h hp hmappable
        (mt (Policy.included_eq_nil_iff hmappable).mp hactions))
    · exact Or.inl (PolicySet.mem_unmappable_iff.mpr ⟨hp, hmappable⟩)
  · intro p hp hidle hun
    exact (PolicySet.mem_unmappable_iff.mp hun).2 (Policy.isIdle_iff.mp hidle).2
  · rw [assignments_filter_isIdle, h]

/-- Three policies on an album: one without actions, one that grants, and one that only
    excludes. -/
def albumPolicies : PolicySet :=
  [{ subject := { members := ["user:alice"] }, object := some { assetId := some "album" } },
   { subject := { members := ["user:alice"] }, actions := [⟨"view", "gcp:roles/viewer", false⟩]
     object := some { assetId := some "album" } },
   { subject := { members := ["any"] }, actions := [⟨"delete", "gcp:roles/owner", true⟩]
     object := some { assetId := some "album" } }]

theorem reported_or_bound_album :
    ∃ as, cloud.assignments albumPolicies = .ok as ∧ albumPolicies[1].IsBound as ∧
      albumPolicies[2] ∈ albumPolicies.unmappable ∧
      (cloud.assignmentEvents albumPolicies).filter Event.isDropped =
        [.dropped "#2" "only excludes actions"] := by
  obtain ⟨as, h⟩ : ∃ as, cloud.assignments albumPolicies = .ok as := ⟨_, rfl⟩
  obtain ⟨hall, hevents, -⟩ := reported_or_bound h
  refine ⟨as, h, ?_, by decide, hevents⟩
  exact (hall albumPolicies[1] (by decide) (by decide)).resolve_left (by decide)

/-- But a policy without actions is neither reported nor bound. -/
theorem album_lost :
    ¬ ∀ (t : RoleTable) (ps : PolicySet) (as : List Assignment), t.assignments ps = .ok as →
      ∀ p ∈ ps, p ∈ ps.unmappable ∨ p.IsBound as := by
  intro h
  have hlost := h cloud [albumPolicies[0]] [] rfl albumPolicies[0] List.mem_cons_self
  rcases hlost with hun | ⟨a, ha, -⟩
  · exact absurd hun (by decide)
  · cases ha

end RoleTable

end AccessPolicy
