import AccessPolicy.Cedar.Expr.Json
import AccessPolicy.Cedar.Expr.Text
import AccessPolicy.Cedar.Scope
import AccessPolicy.Event

/-!
# Cedar policies

A Cedar policy permits or forbids what its three scopes and its conditions cover. Annotations are
texts under distinct keys and have no effect on that.

* `Policy.annotate`: gives a key a value, in its old place if it has one.
* `Policy.toJson`, `Policy.ofJson`: policies as documents.
* `Policy.listOfJson`, `Policy.load`: a document with one policy, an array of policies, or a set of
  policies under names.
-/

namespace AccessPolicy.Cedar

/-! ## Parts -/

/-- What a policy does with the requests that it covers. -/
inductive Effect where
  | permit
  | forbid
deriving DecidableEq, Repr, Inhabited

namespace Effect

/-- The name of an effect. -/
def name : Effect → String
  | .permit => "permit"
  | .forbid => "forbid"

/-- The effect of a name. -/
def ofName? (s : String) : Option Effect := [permit, forbid].find? fun e => e.name = s

/-- The effect that permits, or the one that does not. -/
def ofPermit (permits : Bool) : Effect := if permits then .permit else .forbid

/-- The effect permits. -/
def permits (e : Effect) : Bool := e = .permit

@[simp]
theorem ofName?_name (e : Effect) : ofName? e.name = some e := by cases e <;> rfl

end Effect

/-- How a condition limits a policy. -/
inductive ConditionKind where
  | when
  | unless
deriving DecidableEq, Repr, Inhabited

namespace ConditionKind

/-- The name of a kind. -/
def name : ConditionKind → String
  | .when => "when"
  | .unless => "unless"

/-- The kind of a name. -/
def ofName? (s : String) : Option ConditionKind :=
  [ConditionKind.when, .unless].find? fun k => k.name = s

@[simp]
theorem ofName?_name (k : ConditionKind) : ofName? k.name = some k := by cases k <;> rfl

end ConditionKind

/-- A condition of a policy. -/
structure Clause where
  kind : ConditionKind
  body : Expr
deriving DecidableEq, Repr, Inhabited

/-- A Cedar policy. -/
structure Policy where
  effect : Effect
  annotations : List (String × String) := []
  principal : Scope := .all
  action : Scope := .all
  resource : Scope := .all
  clauses : List Clause := []
deriving DecidableEq, Repr, Inhabited

namespace Policy

/-! ## Annotations -/

/-- The value of an annotation. -/
def annotation? (p : Policy) (key : String) : Option String := p.annotations.lookup key

/-- Gives an annotation a value. A key that is there keeps its place. -/
def annotate (p : Policy) (key value : String) : Policy :=
  { p with annotations := Fields.set key value p.annotations }

/-- Adds a condition. -/
def addClause (p : Policy) (kind : ConditionKind) (body : Expr) : Policy :=
  { p with clauses := p.clauses ++ [⟨kind, body⟩] }

end Policy

/-! ## Writing -/

/-- A condition as a document. -/
def Clause.toJson (c : Clause) : Json :=
  .object [("kind", .string c.kind.name), ("body", c.body.toJson)]

namespace Policy

/-- The annotations of a policy as a field. A key that comes again changes the first one. -/
def annotationField (annotations : List (String × String)) : List (String × Json) :=
  if annotations.isEmpty then []
  else [("annotations", .object (Fields.setAll [] (annotations.map fun a => (a.1, .string a.2))))]

/-- A policy as a document. -/
def toJson (p : Policy) : Json :=
  .object ([("effect", .string p.effect.name)] ++ annotationField p.annotations
    ++ [("principal", p.principal.toJson), ("action", p.action.toJson),
      ("resource", p.resource.toJson), ("conditions", .array (p.clauses.map Clause.toJson))])

end Policy

/-! ## Reading -/

/-- The condition of a document. -/
def Clause.ofJson (j : Json) : Except Error Clause :=
  match (j.stringField? "kind").bind ConditionKind.ofName? with
  | none => .error (.unsupported ("condition kind in " ++ j.compact))
  | some kind =>
    match j.field? "body" with
    | none => .error (.parse "condition has no body")
    | some body => (Expr.ofJson body).map (⟨kind, ·⟩)

namespace Policy

/-- The effect of a document. -/
def effectOf (j : Json) : Except Error Effect :=
  match j.stringField? "effect" with
  | none => .error (.parse "policy has no effect")
  | some name =>
    match Effect.ofName? name with
    | some e => .ok e
    | none => .error (.parse ("unknown effect '" ++ name ++ "'"))

/-- An annotation of a document. Null is the empty text. -/
def annotationOf (key : String) : Json → Except Error (String × String)
  | .string s => .ok (key, s)
  | .null => .ok (key, "")
  | j => .error (.parse ("annotation '" ++ key ++ "' must be a string, got " ++ j.kind))

/-- The annotations of a document. -/
def annotationsOf (j : Json) : Except Error (List (String × String)) :=
  match j.field? "annotations" with
  | none => .ok []
  | some .null => .ok []
  | some (.object entries) => entries.mapM fun e => annotationOf e.1 e.2
  | some other => .error (.parse ("annotations must be an object, got " ++ other.kind))

/-- The conditions of a document. -/
def clausesOf (j : Json) : Except Error (List Clause) :=
  match j.field? "conditions" with
  | none => .ok []
  | some (.array items) => items.mapM Clause.ofJson
  | some other => .error (.parse ("conditions must be an array, got " ++ other.kind))

/-- A scope of a document. -/
def scopeOf (j : Json) (name : String) : Except Error Scope :=
  match j.field? name with
  | some s => Scope.ofJson s
  | none => .error (.parse ("policy has no " ++ name ++ " scope"))

/-- The policy of a document. -/
def ofJson (j : Json) : Except Error Policy :=
  match j with
  | .object _ => do
    let effect ← effectOf j
    let annotations ← annotationsOf j
    let clauses ← clausesOf j
    let principal ← scopeOf j "principal"
    let action ← scopeOf j "action"
    let resource ← scopeOf j "resource"
    return { effect, annotations, principal, action, resource, clauses }
  | _ => .error (.parse ("policy must be an object, got " ++ j.kind))

/-- The policies of a document: an array, a set of policies under names, or one policy. -/
def listOfJson (j : Json) : Except Error (List Policy) :=
  match j with
  | .array items => items.mapM ofJson
  | .object _ =>
    match j.field? "staticPolicies" with
    | some (.object entries) => entries.mapM fun e => ofJson e.2
    | some other => .error (.parse ("staticPolicies must be an object, got " ++ other.kind))
    | none => (ofJson j).map ([·])
  | _ => .error (.parse ("expected a policy or a list of policies, got " ++ j.kind))

/-- The policies of bytes. -/
def load (bytes : List UInt8) : Except Error (List Policy) :=
  match Json.readBytes bytes with
  | none => .error .malformed
  | some j => listOfJson j

/-- Policies as a document. -/
def listToJson (ps : List Policy) : Json := .array (ps.map toJson)

/-- What loading reports. -/
def loadEvents (bytes : List UInt8) : List Event :=
  match load bytes with
  | .ok ps => [.cedarParsed .json ps.length]
  | .error _ => []

end Policy

end AccessPolicy.Cedar
