/-!
# Policies

A policy grants actions on a resource to the members of a subject, perhaps on a condition.
Descriptive data travels with it and has no effect on the grant.

* `Policy.isActionable`: only a policy with actions or an object can grant anything.
* `Subject.normalized`: the members in order, each once.
-/

namespace AccessPolicy

/-! ## Parts of a policy -/

/-- One action of a policy. An excluded action is taken out of the grant. -/
structure Action where
  name : String := ""
  uri : String := ""
  exclude : Bool := false
deriving DecidableEq, Repr, Inhabited

/-- What happens when the rule of a condition holds. -/
inductive ConditionAction where
  | allow
  | deny
  | audit
deriving DecidableEq, Repr, Inhabited

/-- A rule over the attributes of a request, as free text. -/
structure Condition where
  rule : String
  action : ConditionAction := .allow
deriving DecidableEq, Repr, Inhabited

/-- Descriptive data. -/
structure Meta where
  version : Option String := none
  date : Option String := none
  description : Option String := none
  applicationId : Option String := none
  providerType : Option String := none
  etag : Option String := none
deriving DecidableEq, Repr, Inhabited

/-- The principals of a policy: member texts such as `user:alice@example.com`. -/
structure Subject where
  type : Option String := none
  providerId : Option String := none
  members : List String := []
deriving DecidableEq, Repr, Inhabited

/-- The resource that a policy protects. -/
structure Object where
  assetId : Option String := none
  pathSpec : Option String := none
deriving DecidableEq, Repr, Inhabited

/-- Who may do what to which resource, and when. Without a condition, always. -/
structure Policy where
  id : Option String := none
  info : Meta := {}
  subject : Subject := {}
  actions : List Action := []
  object : Option Object := none
  condition : Option Condition := none
deriving DecidableEq, Repr, Inhabited

namespace Action

/-- The text that stands for the action elsewhere: its URI, or its name if it has none. -/
def identifier (a : Action) : String := if a.uri = "" then a.name else a.uri

/-- The action of an identifier that serves as both name and URI. -/
def ofIdentifier (id : String) (exclude : Bool) : Action := ⟨id, id, exclude⟩

/-- The order of actions: by name, then by URI, then those granted before those excluded. -/
def le (a b : Action) : Bool :=
  if a.name ≠ b.name then a.name < b.name
  else if a.uri ≠ b.uri then a.uri < b.uri
  else !a.exclude || b.exclude

end Action

namespace ConditionAction

/-- All condition actions with their names. -/
def table : List (ConditionAction × String) :=
  [(.allow, "allow"), (.deny, "deny"), (.audit, "audit")]

/-- The names of all condition actions. -/
def names : List String := table.map Prod.snd

/-- The name of a condition action. -/
def name : ConditionAction → String
  | .allow => "allow"
  | .deny => "deny"
  | .audit => "audit"

/-- The condition action of a name. -/
def ofName? (s : String) : Option ConditionAction :=
  (table.find? fun e => e.2 = s).map Prod.fst

@[simp]
theorem ofName?_name (a : ConditionAction) : ofName? a.name = some a := by cases a <;> rfl

end ConditionAction

namespace Meta

/-- Each field with its name, in order. -/
def slots (m : Meta) : List (String × Option String) :=
  [("version", m.version), ("date", m.date), ("description", m.description),
   ("applicationId", m.applicationId), ("providerType", m.providerType), ("etag", m.etag)]

/-- The fields that have a value. -/
def fields (m : Meta) : List (String × String) :=
  m.slots.filterMap fun s => s.2.map (s.1, ·)

/-- No field has a value. -/
def isEmpty (m : Meta) : Bool := m = {}

/-- Gives the field of a name a value. There is no result for a name that is no field. -/
def setField? (m : Meta) (name value : String) : Option Meta :=
  match name with
  | "version" => some { m with version := some value }
  | "date" => some { m with date := some value }
  | "description" => some { m with description := some value }
  | "applicationId" => some { m with applicationId := some value }
  | "providerType" => some { m with providerType := some value }
  | "etag" => some { m with etag := some value }
  | _ => none

end Meta

namespace Subject

/-- The subject with its members in order, each once. -/
def normalized (s : Subject) : Subject :=
  { s with members := (s.members.mergeSort fun a b => decide (a ≤ b)).eraseReps }

end Subject

namespace Object

/-- The identifier of the resource, empty if the object names none. -/
def resourceId (o : Object) : String := o.assetId.getD ""

end Object

namespace Policy

variable {p : Policy} {a : Action}

/-- A policy needs actions or an object to grant anything. -/
def isActionable (p : Policy) : Bool := !p.actions.isEmpty || p.object.isSome

/-- The granted actions. -/
def included (p : Policy) : List Action := p.actions.filter fun a => !a.exclude

theorem mem_included_iff : a ∈ p.included ↔ a ∈ p.actions ∧ a.exclude = false := by
  unfold included
  rw [List.mem_filter, Bool.not_eq_true']

theorem included_ne_nil_iff : p.included ≠ [] ↔ ∃ a ∈ p.actions, a.exclude = false := by
  unfold included
  simp

/-- The excluded actions. -/
def excluded (p : Policy) : List Action := p.actions.filter Action.exclude

theorem excluded_ne_nil_iff : p.excluded ≠ [] ↔ ∃ a ∈ p.actions, a.exclude = true := by
  unfold excluded
  simp

/-- There are actions and all of them are excluded, so the policy only denies. -/
def isWhollyExcluded (p : Policy) : Bool := !p.actions.isEmpty && p.actions.all Action.exclude

theorem isWhollyExcluded_iff :
    p.isWhollyExcluded = true ↔ p.actions ≠ [] ∧ ∀ a ∈ p.actions, a.exclude = true := by
  unfold isWhollyExcluded
  simp

/-- The identifier of the resource, empty if there is none. -/
def resourceId (p : Policy) : String := (p.object.map Object.resourceId).getD ""

theorem resourceId_eq_iff {x : String} (hx : x ≠ "") :
    p.resourceId = x ↔ ∃ o, p.object = some o ∧ o.assetId = some x := by
  unfold resourceId Object.resourceId
  cases p.object with
  | none => simp [hx.symm]
  | some o => cases h : o.assetId <;> simp [h, hx.symm]

theorem resourceId_eq_empty_iff :
    p.resourceId = "" ↔ ∀ o, p.object = some o → o.assetId = none ∨ o.assetId = some "" := by
  unfold resourceId Object.resourceId
  cases p.object with
  | none => simp
  | some o => cases h : o.assetId <;> simp [h]

/-- The condition, if any, denies. -/
def denies (p : Policy) : Bool := p.condition.any fun c => c.action = .deny

theorem denies_iff : p.denies = true ↔ ∃ c, p.condition = some c ∧ c.action = .deny := by
  unfold denies
  rw [Option.any_eq_true]
  simp only [decide_eq_true_eq]

/-- How messages call a policy: by its identifier, or by its place in the set. -/
def label (p : Policy) (index : Nat) : String :=
  match p.id with
  | some id => "'" ++ id ++ "'"
  | none => "#" ++ toString index

end Policy

end AccessPolicy
