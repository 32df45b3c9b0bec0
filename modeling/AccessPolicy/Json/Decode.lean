import AccessPolicy.Json.Basic
import AccessPolicy.Text.Escape

/-!
# Reading values out of documents

A value is read from a document by its shape: a text, a list, one of several names, or a record.
`Mismatch` says where a document has another shape.

A record is read from an object, whose unknown fields are passed over, or from an array of its
fields in order. The fields of an object are read in the order of the document, so the first bad one
counts, and only then is a missing one reported.
-/

namespace AccessPolicy.Json

/-- How a document fails to have a shape. -/
inductive Mismatch where
  /-- A document of the wrong kind. -/
  | type (found : Json) (expected : String)
  /-- An object without a field that has no default. -/
  | missing (field : String)
  /-- An array with too few or too many items. -/
  | length (items : Nat) (expected : String)
  /-- A name that is not one of those known. -/
  | variant (name : String) (known : List String)
  /-- An object in place of a name that does not have exactly one field. -/
  | manyKeys
deriving Repr

/-- What a document is, for messages on its kind. -/
def described : Json → String
  | .null => "null"
  | .bool b => "boolean `" ++ (if b then "true" else "false") ++ "`"
  | .number n@(.int _) => "integer `" ++ n.text ++ "`"
  | .number n@(.float _) => "floating point `" ++ n.text ++ "`"
  | .string s => "string " ++ Text.debugQuoted s
  | .array _ => "sequence"
  | .object _ => "map"

/-- A mismatch in words. -/
def Mismatch.message : Mismatch → String
  | .type found expected => "invalid type: " ++ found.described ++ ", expected " ++ expected
  | .missing field => "missing field `" ++ field ++ "`"
  | .length items expected => "invalid length " ++ toString items ++ ", expected " ++ expected
  | .variant name known =>
    "unknown variant `" ++ name ++ "`, expected one of "
      ++ ", ".intercalate (known.map fun k => "`" ++ k ++ "`")
  | .manyKeys => "invalid value: map, expected map with a single key"

namespace Decode

/-- A text. -/
def string : Json → Except Mismatch String
  | .string s => .ok s
  | j => .error (.type j "a string")

/-- A truth value. -/
def bool : Json → Except Mismatch Bool
  | .bool b => .ok b
  | j => .error (.type j "a boolean")

/-- A value that may be null. -/
def option {α : Type} (item : Json → Except Mismatch α) : Json → Except Mismatch (Option α)
  | .null => .ok none
  | j => (item j).map some

/-- A list of values of one shape. -/
def list {α : Type} (item : Json → Except Mismatch α) : Json → Except Mismatch (List α)
  | .array items => items.mapM item
  | j => .error (.type j "a sequence")

/-- A known name. -/
def known (names : List String) (name : String) : Except Mismatch String :=
  if name ∈ names then .ok name else .error (.variant name names)

/-- One of several names: a text, or an object with the name as its one key and null as value. -/
def choice (names : List String) : Json → Except Mismatch String
  | .string s => known names s
  | .object [(key, value)] => do
    let name ← known names key
    match value with
    | .null => .ok name
    | j => .error (.type j "unit")
  | .object _ => .error .manyKeys
  | j => .error (.type j "string or map")

/-- How a record is read: its name in messages, its fields in order, what it holds before the first
    field, how a field is taken up, and the record in the end, or the place of a field that is
    missing. -/
structure Record (σ α : Type) where
  name : String
  fields : List String
  blank : σ
  set : σ → String → Json → Except Mismatch σ
  finish : σ → Except Nat α

namespace Record

variable {σ α : Type}

/-- Takes up fields in order. -/
def fill (r : Record σ α) (entries : List (String × Json)) : Except Mismatch σ :=
  entries.foldlM (fun s e => r.set s e.1 e.2) r.blank

/-- What an array of the wrong length should have been. -/
def lengthText (r : Record σ α) : String :=
  "struct " ++ r.name ++ " with " ++ toString r.fields.length
    ++ (if r.fields.length = 1 then " element" else " elements")

/-- A record. -/
def read (r : Record σ α) : Json → Except Mismatch α
  | .object entries => do
    let s ← r.fill entries
    match r.finish s with
    | .ok a => .ok a
    | .error i => .error (.missing (r.fields[i]?.getD ""))
  | .array items => do
    let s ← r.fill (r.fields.zip items)
    match r.finish s with
    | .error i => .error (.length i r.lengthText)
    | .ok a =>
      if r.fields.length < items.length then
        .error (.length items.length "fewer elements in array")
      else .ok a
  | j => .error (.type j ("struct " ++ r.name))

end Record

end Decode

/-! ## Writing -/

/-- A field that is left out when there is no value. -/
def optionField {α : Type} (name : String) (toJson : α → Json) : Option α → List (String × Json)
  | none => []
  | some a => [(name, toJson a)]

end AccessPolicy.Json
