import AccessPolicy.Json.Reader

/-!
# Errors

Every operation that fails says which kind of failure it is and why. The reason is left open where a
text is not in the format of a document or of Cedar policies, since then only the kind is fixed.
-/

namespace AccessPolicy

/-- The kinds of failure. -/
inductive ErrorKind where
  /-- A text or document does not have the form of what it should hold. -/
  | parse
  /-- A role that no action maps to. -/
  | unknownRole
  /-- An action that maps to no role. -/
  | unmappedAction
  /-- An expression or scope outside the closed set of forms. -/
  | unsupportedNode
  /-- Several readings, none of which may be preferred. -/
  | ambiguity
  /-- A value that has no form on the other side of a mapping. -/
  | format
  /-- A file that cannot be read. -/
  | io
deriving DecidableEq, Repr, Inhabited

namespace ErrorKind

/-- All kinds with their names in documents and the words that begin their messages. -/
def table : List (ErrorKind × String × String) :=
  [(.parse, "ParseError", "failed to parse input: "),
   (.unknownRole, "UnknownRole", "role has no action mapping: "),
   (.unmappedAction, "UnmappedAction", "action has no role mapping: "),
   (.unsupportedNode, "UnsupportedNodeType", "unsupported node type: "),
   (.ambiguity, "MappingAmbiguity", "mapping ambiguity: "),
   (.format, "InvalidFormat", "Invalid format: "),
   (.io, "IoError", "I/O error: ")]

/-- The name of a kind in documents. -/
def name (k : ErrorKind) : String := ((table.lookup k).getD ("", "")).1

/-- The words that begin the message of an error. -/
def heading (k : ErrorKind) : String := ((table.lookup k).getD ("", "")).2

/-- The kind of a name. -/
def ofName? (s : String) : Option ErrorKind := (table.find? fun e => e.2.1 = s).map Prod.fst

end ErrorKind

/-- A failure. -/
structure Error where
  kind : ErrorKind
  /-- The reason, where it is fixed. -/
  reason : Option String
deriving DecidableEq, Repr, Inhabited

namespace Error

/-- A document of the wrong form. -/
def parse (reason : String) : Error := ⟨.parse, some reason⟩

/-- An expression or scope of the wrong form. -/
def unsupported (reason : String) : Error := ⟨.unsupportedNode, some reason⟩

/-- A value without a form on the other side. -/
def format (reason : String) : Error := ⟨.format, some reason⟩

/-- Several readings. -/
def ambiguity (reason : String) : Error := ⟨.ambiguity, some reason⟩

/-- A role that no action maps to. -/
def unknownRole (role : String) : Error := ⟨.unknownRole, some role⟩

/-- An action that maps to no role. -/
def unmappedAction (action : String) : Error := ⟨.unmappedAction, some action⟩

/-- A text that is no document, or no Cedar text. -/
def malformed : Error := ⟨.parse, none⟩

/-- A policy that Cedar text cannot express. -/
def unprintable : Error := ⟨.format, none⟩

/-- A file that cannot be read. -/
def unreadable : Error := ⟨.io, none⟩

/-- The error in words. -/
def message (e : Error) : Option String := e.reason.map (e.kind.heading ++ ·)

/-! ## Errors as documents -/

/-- An error as a document. -/
def toJson (e : Error) : Json := .object [(e.kind.name, Json.optString e.reason)]

/-- The message for a bare name in place of an error, which must have a reason. -/
def bareName : String := "invalid type: unit variant, expected newtype variant"

/-- The error that a document holds. A document of another form has a message only if it is a bare
    name. -/
def ofJson : Json → Except (Option String) Error
  | .object [(key, .string reason)] =>
    match ErrorKind.ofName? key with
    | some kind => .ok ⟨kind, some reason⟩
    | none => .error none
  | .string name => .error (if (ErrorKind.ofName? name).isSome then some bareName else none)
  | _ => .error none

/-- The error that a text holds. -/
def read (text : String) : Except (Option String) Error := do
  let some (s, rest) := Json.Syntax.readStart text | .error none
  let some j := s.project? .choice | .error none
  let e ← ofJson j
  if rest.isEmpty then return e else .error none

end Error

end AccessPolicy
