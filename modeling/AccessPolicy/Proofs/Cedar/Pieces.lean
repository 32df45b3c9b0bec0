import AccessPolicy.Proofs.Cedar.Scopes

/-!
# The Cedar policies of a policy

A policy becomes one Cedar policy, a piece, for each of its members and each group of its actions.

* `eq_of_mem_groups`, `groups_of_excluded_eq_nil`, `groups_of_included_eq_nil`, `groups_of_ne_nil`:
  the groups.
* `mem_expand_iff`, `mem_split_iff`: the pieces of a policy and of a policy set.
-/

namespace AccessPolicy.Cedar

open Outcome

/-! ## Members -/

/-- The members of a policy. A policy without members is for everyone. -/
def principals (p : AccessPolicy.Policy) : List String :=
  if p.subject.members.isEmpty then [anyMember] else p.subject.members

theorem principals_ne_nil (p : AccessPolicy.Policy) : principals p ≠ [] := by
  unfold principals
  split_ifs with h
  · simp
  · simpa using h

theorem principals_of_mem {p : AccessPolicy.Policy} {m : String} (h : m ∈ p.subject.members) :
    principals p = p.subject.members := by
  unfold principals
  rw [if_neg]
  simpa using List.ne_nil_of_mem h

namespace Config

variable {c : Config}

theorem principalScopes_eq (p : AccessPolicy.Policy) :
    c.principalScopes p = (principals p).mapM c.memberScope := by
  unfold principalScopes principals
  split_ifs <;> rfl

/-! ## Groups of actions -/

theorem groups_ne_nil (p : AccessPolicy.Policy) : c.groups p ≠ [] := by
  unfold groups
  cases p.included.isEmpty <;> cases p.excluded.isEmpty <;> simp

/-- A group holds the granted actions, with the effect of the policy, or the excluded ones. -/
theorem eq_of_mem_groups {p : AccessPolicy.Policy} {g : ActionGroup} (h : g ∈ c.groups p) :
    g = ⟨Effect.ofPermit (!p.denies), c.actionScope p.included, false⟩ ∨
      g = ⟨.forbid, c.actionScope p.excluded, true⟩ := by
  unfold groups at h
  rcases List.mem_append.mp h with h | h
  · split_ifs at h
    · cases h
    · exact Or.inl (List.mem_singleton.mp h)
  · split_ifs at h
    · cases h
    · exact Or.inr (List.mem_singleton.mp h)

/-- Only granted actions are permitted, and only if the policy does not deny. -/
theorem of_mem_groups_of_permit {p : AccessPolicy.Policy} {g : ActionGroup} (h : g ∈ c.groups p)
    (heffect : g.effect = .permit) :
    p.denies = false ∧ g.actions = c.actionScope p.included := by
  obtain rfl | rfl := eq_of_mem_groups h
  · refine ⟨?_, rfl⟩
    cases hdenies : p.denies with
    | false => rfl
    | true => simp [hdenies, Effect.ofPermit] at heffect
  · cases heffect

theorem mem_groups_of_mem_included {p : AccessPolicy.Policy} {a : Action}
    (h : a ∈ p.included) :
    ⟨Effect.ofPermit (!p.denies), c.actionScope p.included, false⟩ ∈ c.groups p := by
  have hne : p.included.isEmpty = false := by simpa using List.ne_nil_of_mem h
  simp [groups, hne]

theorem groups_of_excluded_eq_nil {p : AccessPolicy.Policy} (h : p.excluded = []) :
    c.groups p = [⟨Effect.ofPermit (!p.denies), c.actionScope p.included, false⟩] := by
  simp [groups, h]

theorem groups_of_included_eq_nil {p : AccessPolicy.Policy} (h : p.included = [])
    (hne : p.excluded ≠ []) :
    c.groups p = [⟨.forbid, c.actionScope p.excluded, true⟩] := by
  simp [groups, h, hne]

theorem groups_of_ne_nil {p : AccessPolicy.Policy} (hincluded : p.included ≠ [])
    (hexcluded : p.excluded ≠ []) :
    c.groups p =
      [⟨Effect.ofPermit (!p.denies), c.actionScope p.included, false⟩,
        ⟨.forbid, c.actionScope p.excluded, true⟩] := by
  simp [groups, hincluded, hexcluded]

/-! ## Pieces -/

section Piece

variable (p : AccessPolicy.Policy) (s : Scope) (g : ActionGroup)

@[simp]
theorem piece_effect : (c.piece p s g).effect = g.effect := by
  unfold piece
  split_ifs <;> rfl

@[simp]
theorem piece_principal : (c.piece p s g).principal = s := by
  unfold piece
  split_ifs <;> rfl

@[simp]
theorem piece_action : (c.piece p s g).action = g.actions := by
  unfold piece
  split_ifs <;> rfl

@[simp]
theorem piece_resource : (c.piece p s g).resource = c.resourceScope p := by
  unfold piece
  split_ifs <;> rfl

@[simp]
theorem piece_clauses : (c.piece p s g).clauses = [] := by
  unfold piece
  split_ifs <;> rfl

end Piece

theorem expand_eq_ok_iff {p : AccessPolicy.Policy} {qs : List Policy} :
    c.expand p = .ok qs ↔
      ∃ scopes, List.Forall₂ (fun m s => c.memberScope m = .ok s) (principals p) scopes ∧
        qs = scopes.flatMap fun s => (c.groups p).map (c.piece p s) := by
  unfold expand
  rw [bind_eq_ok_iff, principalScopes_eq]
  simp only [mapM_eq_ok_iff, pure_eq_ok_iff, eq_comm (b := qs)]

theorem split_cons_eq_ok_iff {p : AccessPolicy.Policy} {ps : List AccessPolicy.Policy}
    {qs : List Policy} :
    c.split (p :: ps) = .ok qs ↔
      ∃ first others, c.expand p = .ok first ∧ c.split ps = .ok others ∧ qs = first ++ others := by
  rw [split]
  simp only [bind_eq_ok_iff, pure_eq_ok_iff, eq_comm (b := qs)]
  constructor
  · rintro ⟨first, hfirst, others, hothers, rfl⟩
    exact ⟨first, others, hfirst, hothers, rfl⟩
  · rintro ⟨first, others, hfirst, hothers, rfl⟩
    exact ⟨first, hfirst, others, hothers, rfl⟩

theorem mem_expand_iff {p : AccessPolicy.Policy} {qs : List Policy} (h : c.expand p = .ok qs)
    {q : Policy} :
    q ∈ qs ↔ ∃ m ∈ principals p, ∃ s, c.memberScope m = .ok s ∧
      ∃ g ∈ c.groups p, q = c.piece p s g := by
  obtain ⟨scopes, hscopes, rfl⟩ := expand_eq_ok_iff.mp h
  simp only [List.mem_flatMap, List.mem_map]
  constructor
  · rintro ⟨s, hs, g, hg, rfl⟩
    obtain ⟨m, hm, hms⟩ := exists_of_mem_right hscopes hs
    exact ⟨m, hm, s, hms, g, hg, rfl⟩
  · rintro ⟨m, hm, s, hms, g, hg, rfl⟩
    obtain ⟨s', hs', hms'⟩ := exists_of_mem_left hscopes hm
    obtain rfl : s = s' := Except.ok.inj (hms.symm.trans hms')
    exact ⟨s, hs', g, hg, rfl⟩

/-- In a policy set that can be mapped, every member has a scope. -/
theorem exists_memberScope {ps : List AccessPolicy.Policy} {qs : List Policy}
    (h : c.split ps = .ok qs) {p : AccessPolicy.Policy} (hp : p ∈ ps) {m : String}
    (hm : m ∈ principals p) : ∃ s, c.memberScope m = .ok s := by
  induction ps generalizing qs with
  | nil => cases hp
  | cons p' ps ih =>
    obtain ⟨first, others, hfirst, hothers, rfl⟩ := split_cons_eq_ok_iff.mp h
    rcases List.mem_cons.mp hp with rfl | hp
    · obtain ⟨scopes, hscopes, rfl⟩ := expand_eq_ok_iff.mp hfirst
      obtain ⟨s, _, hs⟩ := exists_of_mem_left hscopes hm
      exact ⟨s, hs⟩
    · exact ih hothers hp

/-- The Cedar policies of a policy set are the pieces of its policies. -/
theorem mem_split_iff {ps : List AccessPolicy.Policy} {qs : List Policy}
    (h : c.split ps = .ok qs) {q : Policy} :
    q ∈ qs ↔ ∃ p ∈ ps, ∃ m ∈ principals p, ∃ s, c.memberScope m = .ok s ∧
      ∃ g ∈ c.groups p, q = c.piece p s g := by
  induction ps generalizing qs with
  | nil =>
    rw [← Except.ok.inj h]
    simp
  | cons p ps ih =>
    obtain ⟨first, others, hfirst, hothers, rfl⟩ := split_cons_eq_ok_iff.mp h
    rw [List.mem_append, mem_expand_iff hfirst, ih hothers, List.exists_mem_cons_iff]

end Config

end AccessPolicy.Cedar
