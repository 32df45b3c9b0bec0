import AccessPolicy.Json.Decode
import AccessPolicy.Json.Syntax
import AccessPolicy.Policy.Basic

/-!
# Policies as documents

Every part of a policy is a record. Absent parts are left out when a policy is written, and taken
for absent when it is read. The subject and the actions of a policy are always written.

* `Policy.toJson`, `Policy.ofJson`: the two directions.
* `Policy.layout`: the fields that a policy can have.
-/

namespace AccessPolicy

open Json (Mismatch Layout optionField)
open Json.Decode (Record)

/-! ## Actions -/

namespace Action

/-- How an action is read. -/
def record : Record Action Action where
  name := "ActionInfo"
  fields := ["name", "actionUri", "exclude"]
  blank := {}
  set a key value :=
    match key with
    | "name" => do return { a with name := ← Json.Decode.string value }
    | "actionUri" => do return { a with uri := ← Json.Decode.string value }
    | "exclude" => do return { a with exclude := ← Json.Decode.bool value }
    | _ => .ok a
  finish := .ok

/-- The fields of an action. -/
def layout : Layout := .record [("name", .value), ("actionUri", .value), ("exclude", .value)]

/-- The action of a document. -/
def ofJson : Json → Except Mismatch Action := record.read

/-- An action as a document. Only an excluded one says so. -/
def toJson (a : Action) : Json :=
  .object ([("name", .string a.name), ("actionUri", .string a.uri)]
    ++ if a.exclude then [("exclude", .bool true)] else [])

end Action

/-! ## Conditions -/

namespace ConditionAction

/-- The condition action of a document. -/
def ofJson (j : Json) : Except Mismatch ConditionAction := do
  let name ← Json.Decode.choice names j
  return (ofName? name).getD .allow

/-- A condition action as a document. -/
def toJson (a : ConditionAction) : Json := .string a.name

end ConditionAction

namespace Condition

/-- How a condition is read. The rule must be there. -/
def record : Record (Option String × ConditionAction) Condition where
  name := "Condition"
  fields := ["rule", "action"]
  blank := (none, .allow)
  set c key value :=
    match key with
    | "rule" => do return (some (← Json.Decode.string value), c.2)
    | "action" => do return (c.1, ← ConditionAction.ofJson value)
    | _ => .ok c
  finish
    | (some rule, action) => .ok ⟨rule, action⟩
    | (none, _) => .error 0

/-- The fields of a condition. -/
def layout : Layout := .record [("rule", .value), ("action", .choice)]

/-- The condition of a document. -/
def ofJson : Json → Except Mismatch Condition := record.read

/-- A condition as a document. -/
def toJson (c : Condition) : Json :=
  .object [("rule", .string c.rule), ("action", c.action.toJson)]

end Condition

/-! ## Descriptive data -/

namespace Meta

/-- How descriptive data is read. -/
def record : Record Meta Meta where
  name := "Meta"
  fields := ["version", "date", "description", "applicationId", "providerType", "etag"]
  blank := {}
  set m key value :=
    match key with
    | "version" => do return { m with version := ← Json.Decode.option Json.Decode.string value }
    | "date" => do return { m with date := ← Json.Decode.option Json.Decode.string value }
    | "description" => do
      return { m with description := ← Json.Decode.option Json.Decode.string value }
    | "applicationId" => do
      return { m with applicationId := ← Json.Decode.option Json.Decode.string value }
    | "providerType" => do
      return { m with providerType := ← Json.Decode.option Json.Decode.string value }
    | "etag" => do return { m with etag := ← Json.Decode.option Json.Decode.string value }
    | _ => .ok m
  finish := .ok

/-- The fields of descriptive data. -/
def layout : Layout := .record (record.fields.map (·, .value))

/-- The descriptive data of a document. -/
def ofJson : Json → Except Mismatch Meta := record.read

/-- Descriptive data as a document. -/
def toJson (m : Meta) : Json := .object (m.fields.map fun f => (f.1, .string f.2))

end Meta

/-! ## Subjects and objects -/

namespace Subject

/-- How a subject is read. -/
def record : Record Subject Subject where
  name := "Subject"
  fields := ["type", "providerId", "members"]
  blank := {}
  set s key value :=
    match key with
    | "type" => do return { s with type := ← Json.Decode.option Json.Decode.string value }
    | "providerId" => do
      return { s with providerId := ← Json.Decode.option Json.Decode.string value }
    | "members" => do return { s with members := ← Json.Decode.list Json.Decode.string value }
    | _ => .ok s
  finish := .ok

/-- The fields of a subject. -/
def layout : Layout := .record [("type", .value), ("providerId", .value), ("members", .value)]

/-- The subject of a document. -/
def ofJson : Json → Except Mismatch Subject := record.read

/-- A subject as a document. -/
def toJson (s : Subject) : Json :=
  .object (optionField "type" .string s.type ++ optionField "providerId" .string s.providerId
    ++ if s.members.isEmpty then [] else [("members", Json.strings s.members)])

end Subject

namespace Object

/-- How an object is read. -/
def record : Record Object Object where
  name := "Object"
  fields := ["assetId", "pathSpec"]
  blank := {}
  set o key value :=
    match key with
    | "assetId" => do return { o with assetId := ← Json.Decode.option Json.Decode.string value }
    | "pathSpec" => do return { o with pathSpec := ← Json.Decode.option Json.Decode.string value }
    | _ => .ok o
  finish := .ok

/-- The fields of an object. -/
def layout : Layout := .record [("assetId", .value), ("pathSpec", .value)]

/-- The object of a document. -/
def ofJson : Json → Except Mismatch Object := record.read

/-- An object as a document. -/
def toJson (o : Object) : Json :=
  .object (optionField "assetId" .string o.assetId ++ optionField "pathSpec" .string o.pathSpec)

end Object

/-! ## Policies -/

namespace Policy

/-- How a policy is read. -/
def record : Record Policy Policy where
  name := "PolicyInfo"
  fields := ["id", "meta", "subject", "actions", "object", "condition"]
  blank := {}
  set p key value :=
    match key with
    | "id" => do return { p with id := ← Json.Decode.option Json.Decode.string value }
    | "meta" => do return { p with info := ← Meta.ofJson value }
    | "subject" => do return { p with subject := ← Subject.ofJson value }
    | "actions" => do return { p with actions := ← Json.Decode.list Action.ofJson value }
    | "object" => do return { p with object := ← Json.Decode.option Object.ofJson value }
    | "condition" => do return { p with condition := ← Json.Decode.option Condition.ofJson value }
    | _ => .ok p
  finish := .ok

/-- The fields of a policy. -/
def layout : Layout :=
  .record [("id", .value), ("meta", Meta.layout), ("subject", Subject.layout),
    ("actions", .list Action.layout), ("object", Object.layout), ("condition", Condition.layout)]

/-- The policy of a document. -/
def ofJson : Json → Except Mismatch Policy := record.read

/-- A policy as a document. -/
def toJson (p : Policy) : Json :=
  .object (optionField "id" .string p.id
    ++ (if p.info.isEmpty then [] else [("meta", p.info.toJson)])
    ++ [("subject", p.subject.toJson), ("actions", .array (p.actions.map Action.toJson))]
    ++ optionField "object" Object.toJson p.object
    ++ optionField "condition" Condition.toJson p.condition)

end Policy

end AccessPolicy
