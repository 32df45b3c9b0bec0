import AccessPolicy.Event
import AccessPolicy.Policy.Document

/-!
# Comparing policy sets

Two policies are the same policy when both have an identifier and it is equal, or, when one has
none, when their subjects, actions and objects agree up to order. A pair of the same policy is then
compared part by part.

* `Policy.isSame`, `Policy.differences`: the two relations.
* `PolicySet.reconcile`: every policy of the first set as equal, changed or removed, in order, then
  those policies of the second set that have no partner as added.
-/

namespace AccessPolicy

/-! ## Entries -/

/-- The parts of a policy in which two can differ. -/
inductive PolicyField where
  | id
  | info
  | subject
  | actions
  | object
  | condition
deriving DecidableEq, Repr

namespace PolicyField

/-- The name of a part. -/
def name : PolicyField → String
  | .id => "id"
  | .info => "meta"
  | .subject => "subject"
  | .actions => "actions"
  | .object => "object"
  | .condition => "condition"

/-- All parts, in order. -/
def all : List PolicyField := [.id, .info, .subject, .actions, .object, .condition]

/-- The part of a name. -/
def ofName? (s : String) : Option PolicyField := all.find? fun f => f.name = s

end PolicyField

/-- What became of a policy. -/
inductive Change where
  | equal
  | added
  | removed
  | changed (fields : List PolicyField)
deriving DecidableEq, Repr

namespace Change

/-- The kind of a change. -/
def kind : Change → String
  | .equal => "equal"
  | .added => "added"
  | .removed => "removed"
  | .changed _ => "changed"

/-- The names of all kinds. -/
def kinds : List String := ["equal", "added", "removed", "changed"]

/-- The parts that differ. -/
def fields : Change → List PolicyField
  | .changed fields => fields
  | _ => []

/-- Whether the kind is that of the other change. -/
def isLike (c d : Change) : Bool := c.kind = d.kind

end Change

/-- What became of one policy. The index is its place in the first set, or in the second for an
    added one. -/
structure Entry where
  index : Nat
  label : String
  change : Change
deriving DecidableEq, Repr

namespace Entry

/-- An entry for a policy at a place. -/
def ofPolicy (index : Nat) (p : Policy) (change : Change) : Entry := ⟨index, p.label index, change⟩

/-- The entry in words. -/
def report (e : Entry) : String :=
  match e.change with
  | .equal => "Equal: policy " ++ e.label ++ " is unchanged"
  | .added => "Added: policy " ++ e.label ++ " is new"
  | .removed => "Removed: policy " ++ e.label ++ " is no longer present"
  | .changed fields =>
    "Changed: policy " ++ e.label ++ " differs in "
      ++ ", ".intercalate (fields.map PolicyField.name)

/-- An entry as a document. -/
def toJson (e : Entry) : Json :=
  let names := e.change.fields.map PolicyField.name
  .object ([("index", .nat e.index), ("kind", .string e.change.kind)]
    ++ (if names.isEmpty then [] else [("fieldDiffs", Json.strings names)])
    ++ [("report", .string e.report)])

end Entry

/-! ## Two policies -/

namespace Policy

/-- The actions in order. -/
def sortedActions (p : Policy) : List Action := p.actions.mergeSort Action.le

/-- Subjects, actions and objects agree up to order. -/
def sameStructure (p q : Policy) : Bool :=
  p.subject.normalized = q.subject.normalized && p.sortedActions = q.sortedActions
    && p.object = q.object

/-- Two policies are the same policy. -/
def isSame (p q : Policy) : Bool :=
  match p.id, q.id with
  | some a, some b => a = b
  | _, _ => p.sameStructure q

/-- Two policies differ in a part. -/
def differsIn (p q : Policy) : PolicyField → Bool
  | .id => p.id ≠ q.id
  | .info => p.info ≠ q.info
  | .subject => p.subject.normalized ≠ q.subject.normalized
  | .actions => p.sortedActions ≠ q.sortedActions
  | .object => p.object ≠ q.object
  | .condition => p.condition ≠ q.condition

/-- The parts in which two policies differ, in order. -/
def differences (p q : Policy) : List PolicyField := PolicyField.all.filter (p.differsIn q)

/-- Two policies differ in no part. -/
def equivalent (p q : Policy) : Bool := (p.differences q).isEmpty

/-- What became of a policy that is now another. -/
def changeTo (p q : Policy) : Change :=
  if p.equivalent q then .equal else .changed (p.differences q)

end Policy

/-! ## Two sets -/

/-- Policies with their places. -/
abbrev Placed := List (Nat × Policy)

namespace Placed

/-- The partner of a policy among those without one: the first that does not differ at all, or else
    the first that is the same policy. -/
def partner? (p : Policy) (rest : Placed) : Option (Nat × Policy) :=
  let candidates := rest.filter fun q => p.isSame q.2
  match candidates.find? fun q => p.equivalent q.2 with
  | some q => some q
  | none => candidates.head?

/-- The policies without a partner once a place has one. -/
def without (index : Nat) (rest : Placed) : Placed := rest.filter fun q => q.1 ≠ index

/-- The entries of policies from a place on, and the policies that are left without a partner. -/
def pair (rest : Placed) : Nat → List Policy → List Entry × Placed
  | _, [] => ([], rest)
  | index, p :: ps =>
    match rest.partner? p with
    | some (place, q) =>
      let (entries, left) := pair (rest.without place) (index + 1) ps
      (.ofPolicy index p (p.changeTo q) :: entries, left)
    | none =>
      let (entries, left) := pair rest (index + 1) ps
      (.ofPolicy index p .removed :: entries, left)

/-- Policies with their places, from a place on. -/
def ofList : Nat → List Policy → Placed
  | _, [] => []
  | index, p :: ps => (index, p) :: ofList (index + 1) ps

/-- The entries of policies without a partner. -/
def added (left : Placed) : List Entry := left.map fun q => .ofPolicy q.1 q.2 .added

end Placed

namespace PolicySet

/-- Every policy of two sets with what became of it. -/
def compare (source target : PolicySet) : List Entry :=
  let (entries, left) := (Placed.ofList 0 target).pair 0 source
  entries ++ left.added

/-- Every policy of two sets with what became of it. With `changesOnly` the equal ones are left
    out. -/
def reconcile (source target : PolicySet) (changesOnly : Bool) : List Entry :=
  let entries := compare source target
  if changesOnly then entries.filter fun e => e.change ≠ .equal else entries

/-- What a comparison reports: every entry, then how many there are of each kind. -/
def reconcileEvents (source target : PolicySet) : List Event :=
  let entries := compare source target
  let count (c : Change) := entries.countP fun e => e.change.isLike c
  entries.map (fun e => .classified e.change.kind e.report)
    ++ [.compared (count .equal) (count (.changed [])) (count .removed) (count .added)]

end PolicySet

end AccessPolicy
