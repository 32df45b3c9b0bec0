import AccessPolicy.Binding.Basic
import AccessPolicy.Error
import AccessPolicy.Event

/-!
# Binding documents

A binding document is a lone binding, one assignment, or an array of assignments. Which of them it
is shows at the top: an array holds assignments, an object with a `resourceId` is an assignment, and
an object with a `role` and no `resourceId` is a binding. A lone binding becomes an assignment to no
resource.

* `BindingShape.of?`: the shape of a document.
* `Assignment.listOfJson`, `Assignment.load`: the assignments of a document and of bytes.
-/

namespace AccessPolicy

/-- The shapes of binding documents. -/
inductive BindingShape where
  | binding
  | assignment
  | assignmentList
deriving DecidableEq, Repr

namespace BindingShape

/-- The name of a shape. -/
def name : BindingShape → String
  | .binding => "Binding"
  | .assignment => "Assignment"
  | .assignmentList => "AssignmentList"

/-- The shape of a document, if it has one. -/
def of? : Json → Option BindingShape
  | .array _ => some .assignmentList
  | .object fields =>
    if (fields.lookup "resourceId").isSome then some .assignment
    else if (fields.lookup "role").isSome then some .binding
    else none
  | _ => none

end BindingShape

namespace Assignment

/-- What a document without a shape is. An object is told by its keys. -/
def describe : Json → String
  | .object fields => "an object with keys [" ++ ", ".intercalate (fields.map Prod.fst) ++ "]"
  | j => j.kind

/-- A value, or the reason why a document does not hold it. -/
def decoded {α : Type} (what : String) : Except Json.Mismatch α → Except Error α
  | .ok a => .ok a
  | .error m => .error (.parse ("invalid " ++ what ++ ": " ++ m.message))

/-- The assignment at a place of an array. -/
def ofItem (index : Nat) (item : Json) : Except Error Assignment :=
  if BindingShape.of? item = some .assignment then
    decoded ("bind assignment #" ++ toString index) (ofJson item)
  else
    .error (.parse ("element #" ++ toString index ++ " is not a bind assignment, found "
      ++ describe item))

/-- The assignments of an array from a place on. -/
def ofItems : Nat → List Json → Except Error (List Assignment)
  | _, [] => .ok []
  | index, item :: rest => do
    let a ← ofItem index item
    let as ← ofItems (index + 1) rest
    return a :: as

/-- The assignments of a document. -/
def listOfJson (j : Json) : Except Error (List Assignment) :=
  match BindingShape.of? j, j with
  | some .binding, j => do
    let b ← decoded "binding" (Binding.ofJson j)
    return [{ bindings := [b] }]
  | some .assignment, j => do
    let a ← decoded "bind assignment" (ofJson j)
    return [a]
  | some .assignmentList, .array items => ofItems 0 items
  | _, j =>
    .error (.parse
      ("expected a binding, a bind assignment or an array of bind assignments, found "
        ++ describe j))

/-- The assignments of bytes. -/
def load (bytes : List UInt8) : Except Error (List Assignment) :=
  match Json.readBytes bytes with
  | none => .error .malformed
  | some j => listOfJson j

/-! ## Events -/

/-- What loading reports: the shape, before its parts are read. -/
def loadEvents (bytes : List UInt8) : List Event :=
  match (Json.readBytes bytes).bind BindingShape.of? with
  | some shape => [.bindingsSniffed shape.name]
  | none => []

/-- What loading a file with these bytes reports. -/
def loadFileEvents (bytes : List UInt8) : List Event :=
  .bindingsRead bytes.length :: loadEvents bytes

end Assignment

end AccessPolicy
