import AccessPolicy.Proofs.Binding.Induced

/-!
# Steps on an assignment

An assignment is built step by step: a role is touched, which binds it, or a member is added to it.
Whatever the steps are, each role is bound once and has each of its members once, in the order in
which they first came. A step leaves the bindings of other roles alone, and does nothing if it was
taken before.

* `grant_eq_run`, `takeUp_eq_run`: what policies grant is taken up in steps.
* `run_eq`: the assignment that steps build, in closed form.
* `Accumulates`: an assignment holds what steps touch and add.
* `run_spec`: what steps build, and what one more step changes.
-/

namespace AccessPolicy.Assignment

/-! ## Steps -/

/-- A step on an assignment: a role is touched, or a member is added to it. -/
inductive Step where
  | touch (role : String)
  | add (role member : String)
deriving DecidableEq, Repr

namespace Step

/-- The role that a step is about. -/
def role : Step → String
  | touch role => role
  | add role _ => role

/-- The members that a step adds. -/
def members : Step → List String
  | touch _ => []
  | add _ member => [member]

end Step

/-- An assignment after a step. -/
def apply (a : Assignment) : Step → Assignment
  | .touch role => a.grant role []
  | .add role member => a.grant role [member]

/-- An assignment after steps. -/
def run (a : Assignment) (steps : List Step) : Assignment := steps.foldl apply a

theorem apply_eq (a : Assignment) (s : Step) : a.apply s = a.grant s.role s.members := by
  cases s <;> rfl

/-! ## One step -/

section Step

variable {a : Assignment} {s : Step}

/-- The bindings of other roles stay as they are and where they are, and none comes in. -/
theorem getElem?_bindings_apply_eq_some_iff {b : Binding} (h : b.role ≠ s.role) (i : Nat) :
    (a.apply s).bindings[i]? = some b ↔ a.bindings[i]? = some b := by
  rw [apply_eq]
  apply getElem?_updateFirst_eq_some_iff
  · exact fun _ hrole => hrole
  · exact decide_eq_true rfl
  · simpa using h

/-- Other roles have the binding that they had, or none. -/
theorem binding?_apply_of_ne {role : String} (h : role ≠ s.role) :
    (a.apply s).binding? role = a.binding? role := by
  rw [apply_eq]
  apply find?_updateFirst
  · exact fun _ hrole => hrole
  · exact decide_eq_true rfl
  · intro b hrole hother
    rw [decide_eq_true_eq] at hrole hother
    exact h (hother.symm.trans hrole)

/-- A step does nothing if its role is bound and has the members that it adds. -/
theorem apply_eq_self {b : Binding} (hb : a.binding? s.role = some b)
    (hmembers : ∀ m ∈ s.members, m ∈ b.members) : a.apply s = a := by
  have hsame : b.addMembers s.members = b := by
    unfold Binding.addMembers
    rw [addAll_eq_self hmembers]
  rw [apply_eq, grant, updateFirst_eq_self hb hsame]

end Step

/-! ## Grants as steps -/

theorem run_append (a : Assignment) (steps steps' : List Step) :
    a.run (steps ++ steps') = (a.run steps).run steps' := List.foldl_append

theorem grant_append (a : Assignment) (role : String) (members members' : List String) :
    a.grant role (members ++ members') = (a.grant role members).grant role members' := by
  unfold grant
  rw [updateFirst_updateFirst]
  · simp only [Binding.addMembers, addAll_append]
  · exact fun _ hrole => hrole
  · exact decide_eq_true rfl

/-- To give members to a role is to touch it and to add them one by one. -/
theorem grant_eq_run (a : Assignment) (role : String) (members : List String) :
    a.grant role members = a.run (.touch role :: members.map (.add role)) := by
  induction members using List.reverseRecOn with
  | nil => rfl
  | append_singleton members m ih =>
    rw [grant_append, ih, List.map_append, ← List.cons_append, run_append]
    rfl

/-- To take up a grant is to take the steps of each of its roles. -/
theorem takeUp_eq_run (a : Assignment) (g : Grant) :
    a.takeUp g = a.run (g.roles.flatMap fun role => .touch role :: g.members.map (.add role)) := by
  unfold takeUp run
  rw [List.foldl_flatMap]
  simp only [grant_eq_run]
  rfl

/-! ## All steps -/

/-- The members that steps add to a role. -/
def added (steps : List Step) (role : String) : List String :=
  (steps.filter fun s => s.role = role).flatMap Step.members

/-- The bindings that steps build: one for each role that is touched, with the members added to
    it. -/
def accumulated (steps : List Step) : List Binding :=
  (steps.map Step.role).eraseDups.map fun role => ⟨role, (added steps role).eraseDups⟩

theorem mem_added_iff {steps : List Step} {role m : String} :
    m ∈ added steps role ↔ .add role m ∈ steps := by
  unfold added
  simp only [List.mem_flatMap, List.mem_filter, decide_eq_true_eq]
  constructor
  · rintro ⟨s, ⟨hs, rfl⟩, hm⟩
    cases s with
    | touch role => cases hm
    | add role member =>
      obtain rfl := List.mem_singleton.mp hm
      exact hs
  · exact fun hs => ⟨_, ⟨hs, rfl⟩, List.mem_singleton_self m⟩

theorem roles_accumulated (steps : List Step) :
    (accumulated steps).map Binding.role = (steps.map Step.role).eraseDups := by
  unfold accumulated
  rw [List.map_map]
  exact List.map_id _

theorem members_of_mem_accumulated {steps : List Step} {b : Binding} (h : b ∈ accumulated steps) :
    b.members = (added steps b.role).eraseDups := by
  obtain ⟨role, _, rfl⟩ := List.mem_map.mp h
  rfl

/-- Steps on a new assignment build the bindings of the roles that they touch. -/
theorem run_eq (resourceId : String) (steps : List Step) :
    run { resourceId } steps = ⟨resourceId, accumulated steps⟩ := by
  have hshares : run { resourceId } steps =
      (steps.map fun s => (s.role, s.members)).foldl (fun a s => a.grant s.1 s.2)
        { resourceId } := by
    unfold run
    rw [List.foldl_map]
    simp only [← apply_eq]
  rw [hshares, foldl_grant_new, List.map_map]
  simp only [List.filter_map, List.flatMap_map]
  rfl

/-- A role has a binding if it is touched, and the binding holds the members added to it. -/
theorem binding?_run (resourceId : String) (steps : List Step) (role : String) :
    (run { resourceId } steps).binding? role =
      if role ∈ steps.map Step.role then some ⟨role, (added steps role).eraseDups⟩ else none := by
  rw [run_eq]
  unfold binding? accumulated
  rw [find?_map_key (fun _ => rfl)]
  simp only [List.mem_eraseDups]

theorem binding?_run_eq_some_iff {resourceId : String} {steps : List Step} {role : String}
    {b : Binding} :
    (run { resourceId } steps).binding? role = some b ↔
      role ∈ steps.map Step.role ∧ b = ⟨role, (added steps role).eraseDups⟩ := by
  rw [binding?_run]
  split_ifs with h
  · simp [h, eq_comm]
  · simp [h]

/-- A step that was taken before does nothing. -/
theorem apply_run_of_mem {resourceId : String} {steps : List Step} {s : Step} (h : s ∈ steps) :
    (run { resourceId } steps).apply s = run { resourceId } steps := by
  apply apply_eq_self (binding?_run_eq_some_iff.mpr ⟨List.mem_map_of_mem h, rfl⟩)
  intro m hm
  rw [List.mem_eraseDups]
  exact List.mem_flatMap.mpr ⟨s, List.mem_filter.mpr ⟨h, decide_eq_true rfl⟩, hm⟩

/-- An assignment holds what steps touch and add, and nothing else. -/
structure Accumulates (steps : List Step) (a : Assignment) : Prop where
  /-- Roles stand in the order in which they were first touched. -/
  roles_eq : a.bindings.map Binding.role = (steps.map Step.role).eraseDups
  roles_nodup : (a.bindings.map Binding.role).Nodup
  /-- The members of a role stand in the order in which they were first added to it. -/
  members_eq : ∀ b ∈ a.bindings, b.members = (added steps b.role).eraseDups
  members_nodup : ∀ b ∈ a.bindings, b.members.Nodup
  /-- A role has a binding exactly if a step touched it. -/
  isSome_binding?_iff : ∀ role, (a.binding? role).isSome ↔ ∃ s ∈ steps, s.role = role
  /-- The binding of a role is one of the assignment, and has the members added to this role. -/
  binding?_holds : ∀ role b, a.binding? role = some b →
    b ∈ a.bindings ∧ b.role = role ∧ ∀ m, m ∈ b.members ↔ .add role m ∈ steps

theorem accumulates_run (resourceId : String) (steps : List Step) :
    Accumulates steps (run { resourceId } steps) where
  roles_eq := by
    rw [run_eq]
    exact roles_accumulated steps
  roles_nodup := by
    rw [run_eq, roles_accumulated]
    exact nodup_eraseDups _
  members_eq := by
    rw [run_eq]
    exact fun b hb => members_of_mem_accumulated hb
  members_nodup := by
    rw [run_eq]
    intro b hb
    rw [members_of_mem_accumulated hb]
    exact nodup_eraseDups _
  isSome_binding?_iff := by
    intro role
    rw [binding?_run, ← List.mem_map]
    split_ifs with h
    · simp [h]
    · simp [h]
  binding?_holds := by
    intro role b hb
    have hmem : b ∈ (run { resourceId } steps).bindings := List.mem_of_find?_eq_some hb
    obtain ⟨-, rfl⟩ := binding?_run_eq_some_iff.mp hb
    exact ⟨hmem, rfl, fun m => List.mem_eraseDups.trans mem_added_iff⟩

/-- **Steps.** What steps build for a resource holds the roles that they touch and the members that
    they add, each once and in the order in which they first came. One more step leaves the bindings
    of other roles as they are and where they are. It changes nothing if it was taken before. -/
theorem run_spec (resourceId : String) (steps : List Step) :
    let a := run { resourceId } steps
    a.resourceId = resourceId ∧ Accumulates steps a ∧
    (∀ s b, b.role ≠ s.role → ∀ i : Nat,
      (a.apply s).bindings[i]? = some b ↔ a.bindings[i]? = some b) ∧
    (∀ s role, role ≠ s.role → (a.apply s).binding? role = a.binding? role) ∧
    ∀ s ∈ steps, a.apply s = a := by
  refine ⟨?_, accumulates_run resourceId steps, ?_, ?_, ?_⟩
  · rw [run_eq]
  · exact fun s b h i => getElem?_bindings_apply_eq_some_iff h i
  · exact fun s role h => binding?_apply_of_ne h
  · exact fun s hs => apply_run_of_mem hs

/-- Two roles of an album, of which one is touched again before it gets a second member. -/
theorem run_spec_album :
    let steps : List Step := [.add "viewer" "user:alice", .touch "editor", .touch "viewer",
      .add "viewer" "user:bob"]
    let a := run { resourceId := "album" } steps
    a = ⟨"album", [⟨"viewer", ["user:alice", "user:bob"]⟩, ⟨"editor", []⟩]⟩ ∧
      Accumulates steps a ∧
      (a.apply (.add "editor" "user:bob")).binding? "viewer" = a.binding? "viewer" ∧
      a.apply (.add "viewer" "user:alice") = a := by
  intro steps a
  obtain ⟨-, haccumulates, -, hother, hagain⟩ := run_spec "album" steps
  exact ⟨by decide, haccumulates, hother _ _ (by decide), hagain _ (by decide)⟩

end AccessPolicy.Assignment
