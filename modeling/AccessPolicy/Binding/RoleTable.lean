import AccessPolicy.Error
import AccessPolicy.Json.Decode
import AccessPolicy.Text.Beginning

/-!
# Role tables

A role table gives each action the role that grants it. A role may be granted by several actions.
Actions may also carry their role behind a fixed beginning: such an action needs no row.

* `RoleTable.role?`: the role of an action.
* `RoleTable.actions`: the actions that grant a role.
* `RoleTable.validate`: no row has an empty side and no action has two roles.
-/

namespace AccessPolicy

/-- A row of a role table. -/
structure RoleRow where
  action : String
  role : String
deriving DecidableEq, Repr, Inhabited

/-- Rows in order, and the beginning of actions that carry their role. -/
structure RoleTable where
  rows : List RoleRow := []
  passthrough : Option String := none
deriving DecidableEq, Repr, Inhabited

namespace RoleTable

/-- The beginning of actions in which cloud roles are written out. -/
def cloudPassthrough : String := "gcp:"

/-- The table without rows that passes cloud roles through. -/
def cloud : RoleTable := { passthrough := some cloudPassthrough }

/-- The table with another beginning for actions that carry their role. -/
def withPassthrough (t : RoleTable) (beginning : String) : RoleTable :=
  { t with passthrough := some beginning }

/-! ## Lookup -/

/-- The role that an action carries behind a beginning. -/
def carried? (beginning action : String) : Option String :=
  match Text.after? beginning.toList action.toList with
  | some (c :: cs) => some (String.ofList (c :: cs))
  | _ => none

/-- The role of an action: that of its first row, or the one that it carries. -/
def role? (t : RoleTable) (action : String) : Option String :=
  match t.rows.find? fun r => r.action = action with
  | some r => some r.role
  | none => t.passthrough.bind fun beginning => carried? beginning action

/-- The actions of the rows of a role. -/
def rowActions (t : RoleTable) (role : String) : List String :=
  (t.rows.filter fun r => r.role = role).map RoleRow.action

/-- The actions that grant a role, in table order. Without a row it is the action that carries
    it. -/
def actions (t : RoleTable) (role : String) : Except Error (List String) :=
  match t.rowActions role, t.passthrough with
  | [], some beginning => .ok [beginning ++ role]
  | [], none => .error (.unknownRole role)
  | found, _ => .ok found

/-! ## Validation -/

/-- A row as messages show it. -/
def shownRow (r : RoleRow) : String :=
  "RoleMapping \x7b action: " ++ Text.debugQuoted r.action ++ ", role: " ++ Text.debugQuoted r.role
    ++ " \x7d"

/-- The role that the rows before, the last one first, give an action. -/
def earlierRole? (before : List RoleRow) (action : String) : Option String :=
  (before.find? fun r => r.action = action).map RoleRow.role

/-- Checks rows in order; `before` are those already checked, the last one first. -/
def validateRows (before : List RoleRow) : List RoleRow → Except Error Unit
  | [] => .ok ()
  | r :: rest =>
    if r.action = "" ∨ r.role = "" then
      .error (.format ("role table row with empty action or role: " ++ shownRow r))
    else
      match earlierRole? before r.action with
      | some previous =>
        if previous = r.role then validateRows (r :: before) rest
        else
          .error (.ambiguity ("action '" ++ r.action ++ "' maps to both '" ++ previous ++ "' and '"
            ++ r.role ++ "'"))
      | none => validateRows (r :: before) rest

/-- Checks a table. -/
def validate (t : RoleTable) : Except Error Unit := validateRows [] t.rows

/-- The table itself, if it is valid. -/
def checked (t : RoleTable) : Except Error RoleTable := do
  t.validate
  return t

/-- The table of pairs of actions and roles, if it is valid. -/
def ofPairs (pairs : List (String × String)) : Except Error RoleTable :=
  checked { rows := pairs.map fun p => ⟨p.1, p.2⟩ }

/-! ## Documents -/

open Json (Mismatch Layout)
open Json.Decode (Record)

/-- How a row is read. Both sides must be there. -/
def rowRecord : Record (Option String × Option String) RoleRow where
  name := "RoleMapping"
  fields := ["action", "role"]
  blank := (none, none)
  set r key value :=
    match key with
    | "action" => do return (some (← Json.Decode.string value), r.2)
    | "role" => do return (r.1, some (← Json.Decode.string value))
    | _ => .ok r
  finish
    | (some action, some role) => .ok ⟨action, role⟩
    | (none, _) => .error 0
    | (some _, none) => .error 1

/-- How a table is read. -/
def record : Record RoleTable RoleTable where
  name := "RoleTable"
  fields := ["mappings", "passthroughPrefix"]
  blank := {}
  set t key value :=
    match key with
    | "mappings" => do return { t with rows := ← Json.Decode.list rowRecord.read value }
    | "passthroughPrefix" => do
      return { t with passthrough := ← Json.Decode.option Json.Decode.string value }
    | _ => .ok t
  finish := .ok

/-- The fields of a table. -/
def layout : Layout :=
  .record [("mappings", .list (.record [("action", .value), ("role", .value)])),
    ("passthroughPrefix", .value)]

/-- The table of a document. -/
def ofJson : Json → Except Mismatch RoleTable := record.read

/-- A row as a document. -/
def rowToJson (r : RoleRow) : Json :=
  .object [("action", .string r.action), ("role", .string r.role)]

/-- A table as a document. -/
def toJson (t : RoleTable) : Json :=
  .object ([("mappings", .array (t.rows.map rowToJson))]
    ++ Json.optionField "passthroughPrefix" .string t.passthrough)

/-- The valid table of a text. -/
def load (text : String) : Except Error RoleTable :=
  match (Json.readAs layout text).map ofJson with
  | some (.ok t) => t.checked
  | _ => .error .malformed

end RoleTable

end AccessPolicy
