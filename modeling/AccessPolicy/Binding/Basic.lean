import AccessPolicy.Distinct
import AccessPolicy.Json.Decode
import AccessPolicy.Json.Syntax

/-!
# Role bindings

A binding grants one role to members, and an assignment holds the bindings of one resource. Roles of
an assignment and members of a binding are kept in the order in which they first came.

* `Assignment.grant` adds members to the binding of a role.
* `Assignment.binding?` finds the binding of a role.
-/

namespace AccessPolicy

/-! ## Bindings -/

/-- A role and the members that have it. -/
structure Binding where
  role : String
  members : List String := []
deriving DecidableEq, Repr, Inhabited

/-- The bindings of a resource. The resource is empty for bindings that stand alone. -/
structure Assignment where
  resourceId : String := ""
  bindings : List Binding := []
deriving DecidableEq, Repr, Inhabited

namespace Binding

/-- Adds members in order, each unless it is there. -/
def addMembers (b : Binding) (members : List String) : Binding :=
  { b with members := addAll b.members members }

end Binding

namespace Assignment

/-- The first binding of a role. -/
def binding? (a : Assignment) (role : String) : Option Binding :=
  a.bindings.find? fun b => b.role = role

/-- Makes sure that a role is bound and gives it members. -/
def grant (a : Assignment) (role : String) (members : List String) : Assignment :=
  { a with
    bindings := updateFirst (fun b => b.role = role) { role } (·.addMembers members) a.bindings }

end Assignment

/-! ## Documents -/

open Json (Mismatch Layout)
open Json.Decode (Record)

namespace Binding

/-- How a binding is read. The role must be there. -/
def record : Record (Option String × List String) Binding where
  name := "Binding"
  fields := ["role", "members"]
  blank := (none, [])
  set b key value :=
    match key with
    | "role" => do return (some (← Json.Decode.string value), b.2)
    | "members" => do return (b.1, ← Json.Decode.list Json.Decode.string value)
    | _ => .ok b
  finish
    | (some role, members) => .ok { role, members }
    | (none, _) => .error 0

/-- The fields of a binding. -/
def layout : Layout := .record [("role", .value), ("members", .value)]

/-- The binding of a document. -/
def ofJson : Json → Except Mismatch Binding := record.read

/-- A binding as a document. -/
def toJson (b : Binding) : Json :=
  .object [("role", .string b.role), ("members", Json.strings b.members)]

end Binding

namespace Assignment

/-- How an assignment is read. -/
def record : Record Assignment Assignment where
  name := "BindAssignment"
  fields := ["resourceId", "bindings"]
  blank := {}
  set a key value :=
    match key with
    | "resourceId" => do return { a with resourceId := ← Json.Decode.string value }
    | "bindings" => do return { a with bindings := ← Json.Decode.list Binding.ofJson value }
    | _ => .ok a
  finish := .ok

/-- The fields of an assignment. -/
def layout : Layout := .record [("resourceId", .value), ("bindings", .list Binding.layout)]

/-- The assignment of a document. -/
def ofJson : Json → Except Mismatch Assignment := record.read

/-- An assignment as a document. -/
def toJson (a : Assignment) : Json :=
  .object [("resourceId", .string a.resourceId),
    ("bindings", .array (a.bindings.map Binding.toJson))]

/-- Assignments as a document. -/
def listToJson (as : List Assignment) : Json := .array (as.map toJson)

end Assignment

end AccessPolicy
