import AccessPolicy.Json.Number

/-!
# Documents

A document as a tree. The fields of an object keep the order of the text, and a key occurs once: a
second value for a key takes the place of the first.
-/

namespace AccessPolicy

/-- A document. -/
inductive Json where
  | null
  | bool (value : Bool)
  | number (value : Json.Number)
  | string (value : String)
  | array (items : List Json)
  | object (fields : List (String × Json))
deriving Repr, Inhabited

namespace Json

/-- An integer as a document. -/
def int (n : Int) : Json := .number (.int n)

/-- A natural number as a document. -/
def nat (n : Nat) : Json := int n

/-- A list of texts as a document. -/
def strings (texts : List String) : Json := .array (texts.map .string)

/-- A text, or null if there is none. -/
def optString : Option String → Json
  | some s => .string s
  | none => .null

/-- The value of a field. Only objects have fields. -/
def field? (name : String) : Json → Option Json
  | .object fields => fields.lookup name
  | _ => none

/-- The text, if the document is one. -/
def string? : Json → Option String
  | .string s => some s
  | _ => none

/-- The text of a field, if it is one. -/
def stringField? (name : String) (j : Json) : Option String := (j.field? name).bind string?

/-- What a document is, with an article. -/
def kind : Json → String
  | .null => "null"
  | .bool _ => "a boolean"
  | .number _ => "a number"
  | .string _ => "a string"
  | .array _ => "an array"
  | .object _ => "an object"

end Json

end AccessPolicy
