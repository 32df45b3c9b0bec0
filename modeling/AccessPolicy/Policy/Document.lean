import AccessPolicy.Error
import AccessPolicy.Event
import AccessPolicy.Json.Printer
import AccessPolicy.Policy.Json

/-!
# Policy documents

A policy document is an array of policies, or one policy. A policy must be an object and name
actions or a resource. The first bad policy is reported by its place.

* `PolicySet.ofJson`, `PolicySet.toJson`: documents and policy sets.
* `PolicySet.load`, `PolicySet.save`: the same on bytes and text.
-/

namespace AccessPolicy

/-- Policies in order. The order survives loading and saving but means nothing. -/
abbrev PolicySet := List Policy

/-! ## Reading -/

namespace Policy

/-- The reason for a bad policy at a place of a document. -/
def reasonAt (index : Nat) (reason : String) : String :=
  "policy #" ++ toString index ++ ": " ++ reason

/-- The policy at a place of a document. -/
def ofItem (index : Nat) (item : Json) : Except Error Policy :=
  match item with
  | .object _ =>
    match Policy.ofJson item with
    | .error m => .error (.parse (reasonAt index m.message))
    | .ok p =>
      if p.isActionable then .ok p
      else .error (.parse (reasonAt index "a policy needs actions or an object"))
  | _ => .error (.parse (reasonAt index ("expected an object, found " ++ item.kind)))

end Policy

namespace PolicySet

/-- The policies of the items of a document from a place on. -/
def ofItems : Nat → List Json → Except Error PolicySet
  | _, [] => .ok []
  | index, item :: rest => do
    let p ← Policy.ofItem index item
    let ps ← ofItems (index + 1) rest
    return p :: ps

/-- The policies of a document. -/
def ofJson : Json → Except Error PolicySet
  | .array items => ofItems 0 items
  | .object fields => ofItems 0 [.object fields]
  | j => .error (.parse ("expected a policy object or an array of policies, found " ++ j.kind))

/-- The policies of bytes. -/
def load (bytes : List UInt8) : Except Error PolicySet :=
  match Json.readBytes bytes with
  | none => .error .malformed
  | some j => ofJson j

/-! ## Writing -/

/-- Policies as a document. -/
def toJson (ps : PolicySet) : Json := .array (ps.map Policy.toJson)

/-- Policies as text. -/
def save (ps : PolicySet) : String := (toJson ps).pretty

/-- The layout of an array of policies. -/
def layout : Json.Layout := .list Policy.layout

/-! ## Events -/

/-- What loading reports. -/
def loadEvents (bytes : List UInt8) : List Event :=
  match load bytes with
  | .ok ps => [.policiesParsed ps.length]
  | .error _ => []

/-- What loading a file with these bytes reports. -/
def loadFileEvents (bytes : List UInt8) : List Event :=
  .policiesRead bytes.length :: loadEvents bytes

end PolicySet

end AccessPolicy
