import AccessPolicy.Proofs.Cedar.Notes
import AccessPolicy.Proofs.Cedar.Scopes

/-!
# Cedar policies as policies

What one Cedar policy reads as, from what its annotations say and from the member, the identifiers
and the asset that its scopes stand for.

* `policyOf_eq_ok_iff`: the policies that can be read, and what they read as.
* `denies_reading_iff`: the Cedar policies that read as one that denies.
* `included_reading`, `excluded_reading`: the actions all carry one mark.
-/

namespace AccessPolicy.Cedar

open Outcome

/-! ## The policy that is read -/

/-- The policy that a Cedar policy reads as. -/
def Policy.reading (q : Policy) (n : Notes) (member : String) (ids : List String)
    (asset : Option String) : AccessPolicy.Policy where
  id := n.id
  info := n.info
  subject := { type := n.subjectType, providerId := n.providerId, members := [member] }
  actions := ids.map (Action.ofIdentifier · (q.isExclusion n))
  object := objectOf asset n.pathSpec
  condition := conditionOf (n.rule <|> ruleOf q.clauses) n.conditionAction

theorem Config.policyOf_eq_ok_iff {c : Config} {q : Policy} {p : AccessPolicy.Policy} :
    c.policyOf q = .ok p ↔
      ∃ n member ids asset, Notes.ofAnnotations q.annotations = .ok n ∧
        c.scopeMember q.principal = .ok member ∧ c.scopeActions q.action = .ok ids ∧
        c.scopeAsset q.resource = .ok asset ∧ p = q.reading n member ids asset := by
  unfold Config.policyOf
  simp only [bind_eq_ok_iff, pure_eq_ok_iff]
  constructor
  · rintro ⟨n, hn, member, hmember, ids, hids, asset, hasset, rfl⟩
    exact ⟨n, member, ids, asset, hn, hmember, hids, hasset, rfl⟩
  · rintro ⟨n, member, ids, asset, hn, hmember, hids, hasset, rfl⟩
    exact ⟨n, hn, member, hmember, ids, hids, asset, hasset, rfl⟩

@[simp]
theorem assetId_objectOf (asset path : Option String) :
    (objectOf asset path).bind Object.assetId = asset := by
  cases asset <;> cases path <;> rfl

/-! ## Denial and exclusion -/

theorem conditionAction_ofName?_eq_some_iff {s : String} {a : ConditionAction} :
    ConditionAction.ofName? s = some a ↔ s = a.name := by
  constructor
  · intro h
    obtain ⟨⟨a', s'⟩, hfind, rfl⟩ := Option.map_eq_some_iff.mp h
    have hs : s' = s := by simpa using List.find?_some hfind
    have hmem := List.mem_of_find?_eq_some hfind
    rw [← hs]
    simp only [ConditionAction.table, List.mem_cons, Prod.mk.injEq, List.not_mem_nil,
      or_false] at hmem
    obtain ⟨rfl, rfl⟩ | ⟨rfl, rfl⟩ | ⟨rfl, rfl⟩ := hmem <;> rfl
  · rintro rfl
    exact ConditionAction.ofName?_name a

theorem conditionAction_ofValues_eq_deny_iff (value : String → Option String) :
    (Notes.ofValues value).conditionAction = some .deny ↔
      value "conditionAction" = some "deny" := by
  unfold Notes.ofValues
  rw [Option.bind_eq_some_iff]
  simp only [conditionAction_ofName?_eq_some_iff]
  constructor
  · rintro ⟨_, hvalue, rfl⟩
    exact hvalue
  · intro hvalue
    exact ⟨_, hvalue, rfl⟩

/-- A Cedar policy reads as one that denies: its condition action says so, and it has a
    condition. -/
def Policy.ReadsDenied (q : Policy) : Prop :=
  lastValue? q.annotations "conditionAction" = some "deny" ∧
    (lastValue? q.annotations "condition" ≠ none ∨ q.clauses ≠ [])

/-- The actions of a Cedar policy read as excluded. -/
def Policy.ReadsExcluded (q : Policy) : Prop :=
  q.effect = .forbid ∧
    (lastValue? q.annotations "exclude" = some "true" ∨
      lastValue? q.annotations "conditionAction" ≠ some "deny")

theorem denies_conditionOf_iff {rule : Option String} {action : Option ConditionAction} :
    ((conditionOf rule action).any fun c => c.action = .deny) = true ↔
      rule ≠ none ∧ action = some .deny := by
  unfold conditionOf
  cases rule <;> cases action <;> simp

theorem ruleOf_eq_none_iff {clauses : List Clause} : ruleOf clauses = none ↔ clauses = [] := by
  unfold ruleOf
  cases clauses with
  | nil => simp
  | cons cl rest => cases rest <;> simp

section Reading

variable {q : Policy} {n : Notes} {member : String} {ids : List String} {asset : Option String}

theorem denies_reading_iff (hn : Notes.ofAnnotations q.annotations = .ok n) :
    (q.reading n member ids asset).denies = true ↔ q.ReadsDenied := by
  obtain ⟨-, rfl⟩ := Notes.ofAnnotations_eq_ok_iff.mp hn
  have hrule : (lastValue? q.annotations "condition" <|> ruleOf q.clauses) ≠ none ↔
      lastValue? q.annotations "condition" ≠ none ∨ q.clauses ≠ [] := by
    rw [Ne, Ne, Ne, ← ruleOf_eq_none_iff]
    cases lastValue? q.annotations "condition" <;> simp
  unfold Policy.ReadsDenied
  rw [← conditionAction_ofValues_eq_deny_iff, ← hrule, and_comm]
  exact denies_conditionOf_iff

theorem isExclusion_iff (hn : Notes.ofAnnotations q.annotations = .ok n) :
    q.isExclusion n = true ↔ q.ReadsExcluded := by
  obtain ⟨-, rfl⟩ := Notes.ofAnnotations_eq_ok_iff.mp hn
  unfold Policy.isExclusion Policy.ReadsExcluded
  rw [Bool.and_eq_true, Bool.or_eq_true, decide_eq_true_eq, decide_eq_true_eq, Ne,
    conditionAction_ofValues_eq_deny_iff]
  simp [Notes.ofValues]

/-! ## Actions -/

theorem included_reading :
    (q.reading n member ids asset).included =
      if q.isExclusion n then [] else ids.map (Action.ofIdentifier · false) := by
  unfold AccessPolicy.Policy.included Policy.reading
  cases q.isExclusion n <;> simp [List.filter_map, Action.ofIdentifier, Function.comp_def]

theorem excluded_reading :
    (q.reading n member ids asset).excluded =
      if q.isExclusion n then ids.map (Action.ofIdentifier · true) else [] := by
  unfold AccessPolicy.Policy.excluded Policy.reading
  cases q.isExclusion n <;> simp [List.filter_map, Action.ofIdentifier, Function.comp_def]

end Reading

end AccessPolicy.Cedar
