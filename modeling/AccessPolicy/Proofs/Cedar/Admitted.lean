import AccessPolicy.Proofs.Cedar.Scopes

/-!
# Actions that a scope admits

A scope of actions admits every action, one action, or the actions of a set. Policies only list
actions: a list of none stands for every action, so the empty set, which admits none, has no list of
its own. It reads as the empty list and comes back as the scope without a limit.

* `Scope.Admits`: the action entities that a scope admits.
* `admits_actionScope_iff`: what the scope of a list of actions admits.
* `scopeActions_eq_nil_iff`: the scopes that read as the empty list.
* `admits_of_scopeActions`: what comes back admits what was read, unless this was the empty set.
* `empty_set_widened`: the empty set comes back as the scope without a limit.
-/

namespace AccessPolicy.Cedar

/-- A scope admits an action entity. Scopes that reach actions through a hierarchy or by their type
    have no form as actions and are not considered. -/
inductive Scope.Admits : Scope → EntityUid → Prop where
  | all (e : EntityUid) : Admits .all e
  | eq (e : EntityUid) : Admits (.eq e) e
  | withinAny {es : List EntityUid} {e : EntityUid} : e ∈ es → Admits (.withinAny es) e

namespace Scope

variable {s : Scope} {e : EntityUid}

theorem admits_iff : s.Admits e ↔ s = .all ∨ e ∈ s.entities := by
  constructor
  · rintro (_ | _ | he)
    · exact Or.inl rfl
    · exact Or.inr (List.mem_singleton_self e)
    · exact Or.inr he
  · rintro (rfl | he)
    · exact .all e
    · cases s with
      | eq u => exact List.mem_singleton.mp he ▸ .eq e
      | withinAny es => exact .withinAny he
      | all | within | is | isWithin => cases he

theorem not_admits_withinAny_nil : ¬ (Scope.withinAny []).Admits e := by
  simp [admits_iff, entities]

end Scope

namespace Config

variable {c : Config} {s : Scope} {ids : List String}

/-- The scopes without entities that can be read are the one without a limit and the empty set. -/
theorem scopeActions_eq_nil_iff (h : c.scopeActions s = .ok ids) :
    ids = [] ↔ s = .all ∨ s = .withinAny [] := by
  have hentities := entities_of_scopeActions h
  have hnil : ids = [] ↔ s.entities = [] := by rw [hentities, List.map_eq_nil_iff]
  rw [hnil]
  cases s with
  | all => simp [Scope.entities]
  | eq u => simp [Scope.entities]
  | withinAny es => simp [Scope.entities]
  | within | is | isWithin => cases h

theorem admits_actionScope_iff {as : List Action} {e : EntityUid} :
    (c.actionScope as).Admits e ↔ as = [] ∨ e ∈ as.map c.actionEntity := by
  rw [Scope.admits_iff, entities_actionScope, actionScope_eq_all_iff]

/-- The scope of actions whose identifiers were read from a scope admits what that scope admits,
    except that it admits every action where the empty set was read. -/
theorem admits_actionScope_iff_of_scopeActions (h : c.scopeActions s = .ok ids) {as : List Action}
    (has : as.map Action.identifier = ids) (e : EntityUid) :
    (c.actionScope as).Admits e ↔ s.Admits e ∨ s = .withinAny [] := by
  have hentities : as.map c.actionEntity = s.entities := by
    rw [entities_of_scopeActions h, ← has, List.map_map]
    rfl
  have hnil : as = [] ↔ s = .all ∨ s = .withinAny [] := by
    rw [← scopeActions_eq_nil_iff h, ← has, List.map_eq_nil_iff]
  rw [admits_actionScope_iff, Scope.admits_iff, hentities, hnil]
  exact or_right_comm

/-- **Actions there and back.** Actions whose identifiers were read from a scope have a scope that
    admits every action if the empty set was read, and otherwise what the scope admits that was
    read. So the same actions are admitted exactly if this was not the empty set. -/
theorem admits_of_scopeActions (h : c.scopeActions s = .ok ids) {as : List Action}
    (has : as.map Action.identifier = ids) :
    (∀ e, (c.actionScope as).Admits e ↔ s.Admits e ∨ s = .withinAny []) ∧
      ((∀ id, (c.actionScope as).Admits (c.namedAction id) ↔ s.Admits (c.namedAction id)) ↔
        s ≠ .withinAny []) := by
  have hadmits := admits_actionScope_iff_of_scopeActions h has
  refine ⟨hadmits, fun hsame hempty => ?_, fun hne id => ?_⟩
  · -- the empty set admits no action, not even one of an empty name
    have hnone : s.Admits (c.namedAction "") :=
      (hsame "").mp ((hadmits _).mpr (Or.inr hempty))
    rw [hempty] at hnone
    exact Scope.not_admits_withinAny_nil hnone
  · rw [hadmits, or_iff_left hne]

/-- A set that names an action twice comes back with it, and nothing else. -/
theorem admits_of_scopeActions_view :
    let c : Config := { ns := some "App" }
    let s : Scope := .withinAny [⟨"App::Action", "view"⟩, ⟨"App::Action", "view"⟩]
    let as : List Action := [⟨"view", "", false⟩, ⟨"show", "view", true⟩]
    c.scopeActions s = .ok ["view", "view"] ∧ as.map Action.identifier = ["view", "view"] ∧
      ∀ id, (c.actionScope as).Admits (c.namedAction id) ↔ s.Admits (c.namedAction id) := by
  intro c s as
  have hread : c.scopeActions s = .ok ["view", "view"] := by decide
  have hids : as.map Action.identifier = ["view", "view"] := by decide
  exact ⟨hread, hids, (admits_of_scopeActions hread hids).2.mpr (by decide)⟩

/-- But the empty set, which admits no action, comes back as the scope that admits every action, and
    so what permits nothing comes back as what permits everything. -/
theorem empty_set_widened :
    (¬ ∀ (c : Config) (s : Scope) (ids : List String), c.scopeActions s = .ok ids →
      ∀ as : List Action, as.map Action.identifier = ids →
        ∀ id, (c.actionScope as).Admits (c.namedAction id) ↔ s.Admits (c.namedAction id)) ∧
    (({} : Config).merge [{ effect := .permit, action := .withinAny [] }] >>=
      ({} : Config).split) = .ok [{ effect := .permit }] := by
  refine ⟨fun h => ?_, by decide⟩
  have hsame := h {} (.withinAny []) [] rfl [] rfl ""
  exact Scope.not_admits_withinAny_nil (hsame.mp (.all _))

end Config

end AccessPolicy.Cedar
