import AccessPolicy.Cedar.Entity

/-!
# Scopes

A scope limits the principal, the action or the resource of a Cedar policy.

* `Scope.toJson`, `Scope.ofJson`: scopes as documents, told apart by their operator.
-/

namespace AccessPolicy.Cedar

/-- What a request must satisfy in one of its three places. -/
inductive Scope where
  /-- No limit. -/
  | all
  /-- Exactly this entity. -/
  | eq (entity : EntityUid)
  /-- This entity or one below it. -/
  | within (entity : EntityUid)
  /-- One of these entities or one below them. -/
  | withinAny (entities : List EntityUid)
  /-- An entity of a type. -/
  | is (type : String)
  /-- An entity of a type that is below another entity, or is that entity. -/
  | isWithin (type : String) (entity : EntityUid)
deriving DecidableEq, Repr, Inhabited

namespace Scope

/-- A scope as a document. -/
def toJson : Scope → Json
  | .all => .object [("op", .string "All")]
  | .eq e => .object [("op", .string "=="), ("entity", e.toJson)]
  | .within e => .object [("op", .string "in"), ("entity", e.toJson)]
  | .withinAny es =>
    .object [("op", .string "in"), ("entities", .array (es.map EntityUid.toJson))]
  | .is type => .object [("op", .string "is"), ("entity_type", .string type)]
  | .isWithin type e =>
    .object [("op", .string "is"), ("entity_type", .string type),
      ("in", .object [("entity", e.toJson)])]

/-- A scope of a known operator that lacks a part. -/
def missing (op what : String) : Error :=
  .unsupported ("scope '" ++ op ++ "' is missing " ++ what)

/-- The entity of a scope document, if it names one. -/
def entity? (j : Json) : Except Error (Option EntityUid) :=
  match j.field? "entity" with
  | none => .ok none
  | some e => (EntityUid.ofJson e).map some

/-- The entity of a scope document, which must name one. -/
def entity (op : String) (j : Json) : Except Error EntityUid := do
  match ← entity? j with
  | some e => return e
  | none => .error (missing op "entity")

/-- The scope of a document with the operator `in`: of one entity or of several, not of both. -/
def withinOfJson (j : Json) : Except Error Scope := do
  match ← entity? j, j.field? "entities" with
  | some e, none => return .within e
  | none, some (.array items) => return .withinAny (← items.mapM EntityUid.ofJson)
  | _, _ => .error (missing "in" "entity or entities")

/-- The scope of a document with the operator `is`. -/
def isOfJson (j : Json) : Except Error Scope :=
  match j.stringField? "entity_type" with
  | none => .error (missing "is" "entity_type")
  | some type =>
    match j.field? "in" with
    | none => .ok (.is type)
    | some container => (entity "is ... in" container).map (.isWithin type)

/-- The scope of a document. -/
def ofJson (j : Json) : Except Error Scope :=
  match j.stringField? "op" with
  | none => .error (.unsupported ("scope without 'op': " ++ j.compact))
  | some op =>
    match op with
    | "All" => .ok .all
    | "==" => (entity op j).map .eq
    | "in" => withinOfJson j
    | "is" => isOfJson j
    | other => .error (.unsupported ("scope op '" ++ other ++ "'"))

end Scope

end AccessPolicy.Cedar
