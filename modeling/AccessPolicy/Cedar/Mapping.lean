import AccessPolicy.Cedar.Policy
import AccessPolicy.Distinct
import AccessPolicy.Policy.Document
import AccessPolicy.Text.Beginning

/-!
# Policies and Cedar policies

Forward, a policy becomes one Cedar policy for each member and effect: one for the granted actions
and one that forbids the excluded ones. What scopes cannot hold travels in annotations.

Backward, Cedar policies with one `id` annotation come together in one policy. They must agree on
all but members and actions, and no action may be both granted and excluded.

* `Cedar.Config.expand`, `Cedar.Config.split`: one policy and a policy set to Cedar.
* `Cedar.Config.policyOf`, `Cedar.Config.merge`: one Cedar policy and a list of them to policies.
-/

namespace AccessPolicy.Cedar

/-- How entity types are named. -/
structure Config where
  /-- The namespace of all entity types. -/
  ns : Option String := none
  /-- The type of the entities for objects. -/
  resourceType : String := "Resource"
deriving DecidableEq, Repr, Inhabited

namespace Config

/-! ## Configurations as documents -/

open Json (Mismatch Layout)
open Json.Decode (Record)

/-- How a configuration is read. -/
def record : Record Config Config where
  name := "CedarMapperConfig"
  fields := ["namespace", "resourceType"]
  blank := {}
  set c key value :=
    match key with
    | "namespace" => do return { c with ns := ← Json.Decode.option Json.Decode.string value }
    | "resourceType" => do return { c with resourceType := ← Json.Decode.string value }
    | _ => .ok c
  finish := .ok

/-- The fields of a configuration. -/
def layout : Layout := .record [("namespace", .value), ("resourceType", .value)]

/-- The configuration of a document. -/
def ofJson : Json → Except Mismatch Config := record.read

/-- A configuration as a document. -/
def toJson (c : Config) : Json :=
  .object [("namespace", Json.optString c.ns), ("resourceType", .string c.resourceType)]

/-! ## Types in the namespace -/

/-- A type in the namespace. -/
def qualify (c : Config) (type : String) : String := Cedar.qualify c.ns type

/-- A type without the namespace, if it is in it. -/
def unqualify? (c : Config) (type : String) : Option String :=
  match c.ns with
  | none => some type
  | some ns =>
    if ns = "" then some type
    else (Text.after? (ns ++ "::").toList type.toList).map String.ofList

/-- The type of an entity is a known one in the namespace. -/
def kind? (c : Config) (type : String) : Option EntityKind :=
  (c.unqualify? type).bind EntityKind.ofName?

end Config

/-! ## Members -/

/-- The member that stands for everyone. -/
def anyMember : String := "any"

/-- The member that stands for every user. -/
def anyUserMember : String := "anyAuthenticated"

/-- The word and the identifier of a member text: letters, a colon, and the rest, which is not empty
    and on one line. -/
def splitMember? (member : String) : Option (String × String) :=
  let word := member.toList.takeWhile Char.isAlpha
  match member.toList.dropWhile Char.isAlpha with
  | ':' :: id =>
    if word ≠ [] ∧ id ≠ [] ∧ '\n' ∉ id then some (String.ofList word, String.ofList id) else none
  | _ => none

namespace Config

/-- The scope of the principals that a member stands for. -/
def memberScope (c : Config) (member : String) : Except Error Scope :=
  if member = anyMember then .ok .all
  else if member = anyUserMember then .ok (.is (c.qualify EntityKind.user.name))
  else
    match splitMember? member with
    | none => .error (.format ("member '" ++ member ++ "' has no type prefix"))
    | some (word, id) =>
      match EntityKind.ofMemberWord? word with
      | none =>
        .error (.format ("member '" ++ member ++ "' has unknown type '" ++ word ++ "'"))
      | some kind =>
        let e : EntityUid := ⟨c.qualify kind.name, id⟩
        .ok (if kind.isContainer then .within e else .eq e)

/-- The member of an entity, under the operator with which it is a member. -/
def entityMember (c : Config) (e : EntityUid) (within : Bool) : Except Error String :=
  match c.kind? e.type with
  | none => .error (.format ("principal " ++ e.text ++ " has no member type"))
  | some kind =>
    match kind.memberWord? with
    | none => .error (.format ("principal " ++ e.text ++ " has no member type"))
    | some word =>
      if kind.isContainer = within then .ok (word ++ ":" ++ e.id)
      else
        .error (.format ("principal " ++ (if within then "in" else "==") ++ " " ++ e.text
          ++ " has no member form"))

/-- A scope of principals that no member stands for. -/
def noMember (s : Scope) : Error :=
  .format ("principal scope " ++ s.toJson.compact ++ " has no member form")

/-- The member that stands for the principals of a scope. Containers are members under `in`, all
    others under `==`. -/
def scopeMember (c : Config) (s : Scope) : Except Error String :=
  match s with
  | .all => .ok anyMember
  | .is type =>
    if c.unqualify? type = some EntityKind.user.name then .ok anyUserMember
    else .error (noMember s)
  | .eq e => c.entityMember e false
  | .within e => c.entityMember e true
  | _ => .error (noMember s)

/-! ## Actions -/

/-- The entity of an action. -/
def actionEntity (c : Config) (a : Action) : EntityUid :=
  ⟨c.qualify EntityKind.action.name, a.identifier⟩

/-- The scope of actions. -/
def actionScope (c : Config) (actions : List Action) : Scope :=
  match actions.map c.actionEntity with
  | [] => .all
  | [e] => .eq e
  | es => .withinAny es

/-- The identifier of the action of an entity. -/
def actionId (c : Config) (e : EntityUid) : Except Error String :=
  if c.unqualify? e.type = some EntityKind.action.name then .ok e.id
  else .error (.format (e.text ++ " is not an action"))

/-- The identifiers of the actions of a scope. -/
def scopeActions (c : Config) (s : Scope) : Except Error (List String) :=
  match s with
  | .all => .ok []
  | .eq e => (c.actionId e).map ([·])
  | .withinAny es => es.mapM c.actionId
  | _ => .error (.format ("action scope " ++ s.toJson.compact ++ " has no action form"))

/-! ## Resources -/

/-- The entity of an asset: that of a literal, or else one of the type for objects. -/
def assetEntity (c : Config) (asset : String) : EntityUid :=
  (EntityUid.ofLiteral? asset).getD ⟨c.qualify c.resourceType, asset⟩

/-- The scope of an asset. -/
def assetScope (c : Config) : Option String → Scope
  | none => .all
  | some asset => .eq (c.assetEntity asset)

/-- The asset of a scope: the identifier of an entity of the type for objects, the literal of any
    other. -/
def scopeAsset (c : Config) (s : Scope) : Except Error (Option String) :=
  match s with
  | .all => .ok none
  | .eq e => .ok (some (if e.type = c.qualify c.resourceType then e.id else e.text))
  | _ => .error (.format ("resource scope " ++ s.toJson.compact ++ " has no object form"))

end Config

/-! ## From policies to Cedar -/

/-- The annotation of a policy that forbids excluded actions. -/
def excludeKey : String := "exclude"

/-- What scopes cannot hold of a policy. -/
def annotationsFor (p : AccessPolicy.Policy) : List (String × String) :=
  let opt (key : String) (value : Option String) := (value.map (key, ·)).toList
  opt "id" p.id ++ p.info.fields ++ opt "subjectType" p.subject.type
    ++ opt "providerId" p.subject.providerId ++ opt "pathSpec" (p.object.bind Object.pathSpec)
    ++ match p.condition with
      | none => []
      | some cond => [("condition", cond.rule), ("conditionAction", cond.action.name)]

/-- The actions that go together in one Cedar policy. -/
structure ActionGroup where
  effect : Effect
  actions : Scope
  excluded : Bool
deriving DecidableEq, Repr

namespace Config

/-- The scopes of the principals of a policy. Without members it is for everyone. -/
def principalScopes (c : Config) (p : AccessPolicy.Policy) : Except Error (List Scope) :=
  if p.subject.members.isEmpty then .ok [.all] else p.subject.members.mapM c.memberScope

/-- The groups of actions of a policy: those granted, unless all are excluded, and those
    excluded. -/
def groups (c : Config) (p : AccessPolicy.Policy) : List ActionGroup :=
  (if p.included.isEmpty && !p.excluded.isEmpty then []
    else [⟨Effect.ofPermit (!p.denies), c.actionScope p.included, false⟩])
    ++ if p.excluded.isEmpty then [] else [⟨.forbid, c.actionScope p.excluded, true⟩]

/-- The scope of the resource of a policy. -/
def resourceScope (c : Config) (p : AccessPolicy.Policy) : Scope :=
  c.assetScope (p.object.bind Object.assetId)

/-- The Cedar policy of a principal and a group of actions. -/
def piece (c : Config) (p : AccessPolicy.Policy) (principal : Scope) (g : ActionGroup) : Policy :=
  let q : Policy :=
    { effect := g.effect, annotations := annotationsFor p, principal, action := g.actions,
      resource := c.resourceScope p }
  if g.excluded then q.annotate excludeKey "true" else q

/-- The Cedar policies of a policy. -/
def expand (c : Config) (p : AccessPolicy.Policy) : Except Error (List Policy) := do
  let principals ← c.principalScopes p
  return principals.flatMap fun principal => (c.groups p).map (c.piece p principal)

/-- The Cedar policies of policies, in order. -/
def split (c : Config) : List AccessPolicy.Policy → Except Error (List Policy)
  | [] => .ok []
  | p :: rest => do
    let qs ← c.expand p
    let others ← c.split rest
    return qs ++ others

/-- What the forward direction reports, from a place on. -/
def splitEvents (c : Config) : Nat → List AccessPolicy.Policy → List Event
  | _, [] => []
  | index, p :: rest =>
    match c.expand p with
    | .error _ => []
    | .ok qs => .split (p.label index) qs.length :: c.splitEvents (index + 1) rest

end Config

/-! ## Annotations read back -/

/-- What the annotations of a Cedar policy say. -/
structure Notes where
  id : Option String := none
  subjectType : Option String := none
  providerId : Option String := none
  pathSpec : Option String := none
  rule : Option String := none
  conditionAction : Option ConditionAction := none
  excludes : Bool := false
  info : Meta := {}
deriving DecidableEq, Repr, Inhabited

namespace Notes

/-- Takes up an annotation. -/
def add (n : Notes) (key value : String) : Except Error Notes :=
  match key with
  | "id" => .ok { n with id := some value }
  | "subjectType" => .ok { n with subjectType := some value }
  | "providerId" => .ok { n with providerId := some value }
  | "pathSpec" => .ok { n with pathSpec := some value }
  | "condition" => .ok { n with rule := some value }
  | "conditionAction" =>
    match ConditionAction.ofName? value with
    | some a => .ok { n with conditionAction := some a }
    | none => .error (.format ("condition action '" ++ value ++ "'"))
  | "exclude" => .ok { n with excludes := value = "true" }
  | other => .ok { n with info := (n.info.setField? other value).getD n.info }

/-- The keys with a meaning, other than those of descriptive data. -/
def keys : List String :=
  ["id", "subjectType", "providerId", "pathSpec", "condition", "conditionAction", "exclude"]

/-- An annotation without a meaning. -/
def ignores (key : String) : Bool :=
  !(keys.contains key) && (({} : Meta).setField? key "").isNone

/-- What annotations say. -/
def ofAnnotations (annotations : List (String × String)) : Except Error Notes :=
  annotations.foldlM (fun n a => n.add a.1 a.2) {}

/-- What reading annotations reports, up to the first bad one. -/
def events : List (String × String) → List Event
  | [] => []
  | (key, value) :: rest =>
    match Notes.add {} key value with
    | .error _ => []
    | .ok _ => (if ignores key then [.annotationIgnored key] else []) ++ events rest

end Notes

/-! ## From Cedar to policies -/

/-- The text of a condition, negated where it must not hold. -/
def Clause.text (cl : Clause) : String :=
  match cl.kind with
  | .when => cl.body.display
  | .unless => "!(" ++ cl.body.display ++ ")"

/-- The rule that says what conditions say together. -/
def ruleOf (clauses : List Clause) : Option String :=
  match clauses.map Clause.text with
  | [] => none
  | [rule] => some rule
  | rules => some (" && ".intercalate (rules.map fun r => "(" ++ r ++ ")"))

/-- The actions of a Cedar policy are excluded: it forbids, and not merely because its condition
    denies. -/
def Policy.isExclusion (q : Policy) (n : Notes) : Bool :=
  q.effect = .forbid && (n.excludes || n.conditionAction ≠ some .deny)

/-- The object of an asset and a path, if there is any of the two. -/
def objectOf (assetId pathSpec : Option String) : Option Object :=
  if assetId.isSome || pathSpec.isSome then some ⟨assetId, pathSpec⟩ else none

/-- The condition of a rule. -/
def conditionOf (rule : Option String) (action : Option ConditionAction) : Option Condition :=
  rule.map fun r => ⟨r, action.getD .allow⟩

namespace Config

/-- The policy of one Cedar policy. -/
def policyOf (c : Config) (q : Policy) : Except Error AccessPolicy.Policy := do
  let n ← Notes.ofAnnotations q.annotations
  let member ← c.scopeMember q.principal
  let ids ← c.scopeActions q.action
  let asset ← c.scopeAsset q.resource
  return {
    id := n.id
    info := n.info
    subject := { type := n.subjectType, providerId := n.providerId, members := [member] }
    actions := ids.map (Action.ofIdentifier · (q.isExclusion n))
    object := objectOf asset n.pathSpec
    condition := conditionOf (n.rule <|> ruleOf q.clauses) n.conditionAction }

end Config

/-- The first action that one policy grants and the other excludes. -/
def conflict? (p q : AccessPolicy.Policy) : Option Action :=
  q.actions.find? fun a =>
    p.actions.any fun b => b.identifier = a.identifier && b.exclude ≠ a.exclude

/-- The first thing on which two policies with one identifier disagree. -/
def disagreement? (p q : AccessPolicy.Policy) : Option String :=
  if p.info ≠ q.info then some "meta"
  else if p.subject.type ≠ q.subject.type ∨ p.subject.providerId ≠ q.subject.providerId then
    some "subject"
  else if p.object ≠ q.object then some "object"
  else if p.condition ≠ q.condition then some "condition"
  else (conflict? p q).map fun a => "whether '" ++ a.identifier ++ "' is granted"

/-- The policy with the members and actions of both. -/
def union (p q : AccessPolicy.Policy) : AccessPolicy.Policy :=
  { p with
    subject := { p.subject with members := addAll p.subject.members q.subject.members }
    actions := addAll p.actions q.actions }

/-- Merges a policy into another with its identifier. -/
def mergeInto (p q : AccessPolicy.Policy) : Except Error AccessPolicy.Policy :=
  match disagreement? p q with
  | some what =>
    .error (.ambiguity ("policies with id '" ++ p.id.getD "" ++ "' disagree on " ++ what))
  | none => .ok (union p q)

/-- Merges a policy into the one with its identifier, or adds it at the end. -/
def absorb (q : AccessPolicy.Policy) : List AccessPolicy.Policy →
    Except Error (List AccessPolicy.Policy)
  | [] => .ok [q]
  | p :: rest =>
    if q.id.isSome ∧ p.id = q.id then do
      let r ← mergeInto p q
      return r :: rest
    else do
      let others ← absorb q rest
      return p :: others

namespace Config

/-- Takes up one more Cedar policy. -/
def step (c : Config) (done : List AccessPolicy.Policy) (q : Policy) :
    Except Error (List AccessPolicy.Policy) := do
  let p ← c.policyOf q
  absorb p done

/-- The policies of Cedar policies. -/
def merge (c : Config) (qs : List Policy) : Except Error PolicySet := qs.foldlM c.step []

/-- What the annotations of Cedar policies make the backward direction report, up to the first that
    fails. -/
def annotationEvents (c : Config) (done : List AccessPolicy.Policy) : List Policy → List Event
  | [] => []
  | q :: rest =>
    Notes.events q.annotations ++
      match c.step done q with
      | .ok done => c.annotationEvents done rest
      | .error _ => []

/-- What the backward direction reports. -/
def mergeEvents (c : Config) (qs : List Policy) : List Event :=
  c.annotationEvents [] qs ++
    match c.merge qs with
    | .ok ps => [.merged qs.length ps.length]
    | .error _ => []

end Config

end AccessPolicy.Cedar
