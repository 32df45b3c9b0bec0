import AccessPolicy.Json.Basic

/-!
# Writing documents

* `compact` puts a document on one line without blanks.
* `pretty` puts each item and field on a line of its own, indented by two blanks a level. Empty
  arrays and objects stay on one line.

Texts escape the quote, the backslash and the controls below the blank; all else stands for itself.
-/

namespace AccessPolicy.Json

/-- One lower-case hexadecimal digit. -/
def hexDigit (n : Nat) : Char := Nat.digitChar (n % 16)

/-- One character of a written text. -/
def textChar (c : Char) : List Char :=
  if c = '"' then ['\\', '"']
  else if c = '\\' then ['\\', '\\']
  else if c = '\x08' then ['\\', 'b']
  else if c = '\x0c' then ['\\', 'f']
  else if c = '\n' then ['\\', 'n']
  else if c = '\r' then ['\\', 'r']
  else if c = '\t' then ['\\', 't']
  else if c.toNat < 0x20 then ['\\', 'u', '0', '0', hexDigit (c.toNat / 16), hexDigit c.toNat]
  else [c]

/-- A text in quotes. -/
def textLiteral (s : String) : String :=
  "\"" ++ String.ofList (s.toList.flatMap textChar) ++ "\""

/-- Texts between two brackets, separated by commas. -/
def bracketed (left right : String) (parts : List String) : String :=
  left ++ ",".intercalate parts ++ right

mutual

/-- A document on one line. -/
def compact : Json → String
  | .null => "null"
  | .bool true => "true"
  | .bool false => "false"
  | .number n => n.text
  | .string s => textLiteral s
  | .array items => bracketed "[" "]" (compactItems items)
  | .object fields => bracketed "\x7b" "\x7d" (compactFields fields)

/-- The items of an array, each on one line. -/
def compactItems : List Json → List String
  | [] => []
  | j :: rest => compact j :: compactItems rest

/-- The fields of an object, each on one line. -/
def compactFields : List (String × Json) → List String
  | [] => []
  | (k, j) :: rest => (textLiteral k ++ ":" ++ compact j) :: compactFields rest

end

/-- A line break and the indent of a level. -/
def newline (level : Nat) : String := String.ofList ('\n' :: List.replicate (2 * level) ' ')

/-- Texts between two brackets, on lines of their own one level deeper than the brackets. -/
def indented (level : Nat) (left right : String) (parts : List String) : String :=
  if parts.isEmpty then left ++ right
  else left ++ ",".intercalate (parts.map (newline (level + 1) ++ ·)) ++ newline level ++ right

mutual

/-- A document over several lines, its brackets at a level of indent. -/
def prettyAt (level : Nat) : Json → String
  | .null => "null"
  | .bool true => "true"
  | .bool false => "false"
  | .number n => n.text
  | .string s => textLiteral s
  | .array items => indented level "[" "]" (prettyItems (level + 1) items)
  | .object fields => indented level "\x7b" "\x7d" (prettyFields (level + 1) fields)

/-- The items of an array at a level of indent. -/
def prettyItems (level : Nat) : List Json → List String
  | [] => []
  | j :: rest => prettyAt level j :: prettyItems level rest

/-- The fields of an object at a level of indent. -/
def prettyFields (level : Nat) : List (String × Json) → List String
  | [] => []
  | (k, j) :: rest => (textLiteral k ++ ": " ++ prettyAt level j) :: prettyFields level rest

end

/-- A document over several lines. -/
def pretty (j : Json) : String := prettyAt 0 j

end AccessPolicy.Json
