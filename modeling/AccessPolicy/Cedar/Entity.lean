import AccessPolicy.Error
import AccessPolicy.Json.Printer
import AccessPolicy.Text.Escape

/-!
# Entities

A Cedar entity has a type, which may stand in a namespace, and an identifier. Its literal is
`Type::"id"`.

* `EntityUid.text` writes a literal with the identifier escaped.
* `EntityUid.ofLiteral?` reads a literal whose identifier is written as it is.
* `EntityKind`: the entity types that policies are mapped to, and the members that they stand for.
-/

namespace AccessPolicy.Cedar

/-- A type in a namespace. An absent or empty namespace adds nothing. -/
def qualify (ns : Option String) (type : String) : String :=
  match ns with
  | none => type
  | some ns => if ns = "" then type else ns ++ "::" ++ type

/-- A reference to an entity. -/
structure EntityUid where
  type : String
  id : String
deriving DecidableEq, Repr, Inhabited

namespace EntityUid

/-- An entity whose type is put in a namespace. -/
def qualified (ns : Option String) (type id : String) : EntityUid := ⟨qualify ns type, id⟩

/-! ## Literals -/

/-- The literal of an entity. -/
def text (e : EntityUid) : String := e.type ++ "::" ++ Text.quoted e.id

/-- The parts before and behind the first `::"`. -/
def splitLiteral : List Char → Option (List Char × List Char)
  | [] => none
  | ':' :: ':' :: '"' :: rest => some ([], rest)
  | c :: rest => (splitLiteral rest).map fun (type, id) => (c :: type, id)

/-- The entity of a literal whose identifier is not escaped and holds no quote. -/
def ofLiteral? (s : String) : Option EntityUid :=
  match splitLiteral s.toList with
  | none => none
  | some (type, rest) =>
    if rest.getLast? = some '"' ∧ type ≠ [] ∧ '"' ∉ rest.dropLast then
      some ⟨String.ofList type, String.ofList rest.dropLast⟩
    else none

/-! ## Documents -/

/-- An entity as a document. -/
def toJson (e : EntityUid) : Json := .object [("type", .string e.type), ("id", .string e.id)]

/-- A text of a reference. -/
def part (j : Json) (name : String) : Except Error String :=
  match j.stringField? name with
  | some s => .ok s
  | none =>
    .error (.unsupported ("entity reference without '" ++ name ++ "': " ++ j.compact))

/-- The entity of a document, which may be wrapped as a literal value. -/
def ofJson (j : Json) : Except Error EntityUid := do
  let j := (j.field? "__entity").getD j
  let type ← part j "type"
  let id ← part j "id"
  return ⟨type, id⟩

end EntityUid

/-! ## Entity types of members and actions -/

/-- The entity types that policies are mapped to. -/
inductive EntityKind where
  | user
  | group
  | domain
  | serviceAccount
  | action
deriving DecidableEq, Repr

namespace EntityKind

/-- All entity types. -/
def all : List EntityKind := [.user, .group, .domain, .serviceAccount, .action]

/-- The name of a type, without a namespace. -/
def name : EntityKind → String
  | .user => "User"
  | .group => "Group"
  | .domain => "Domain"
  | .serviceAccount => "ServiceAccount"
  | .action => "Action"

/-- The type of a name. -/
def ofName? (s : String) : Option EntityKind := all.find? fun k => k.name = s

/-- What is said of a name that is no type. -/
def unknownName (s : String) : String := "Unknown Cedar type: " ++ s

/-- The word that begins members of a type. Actions are no members. -/
def memberWord? : EntityKind → Option String
  | .user => some "user"
  | .group => some "group"
  | .domain => some "domain"
  | .serviceAccount => some "serviceAccount"
  | .action => none

/-- The type of members that begin with a word. -/
def ofMemberWord? (s : String) : Option EntityKind := all.find? fun k => k.memberWord? = some s

/-- Groups and domains hold other principals: a policy applies to those in them. -/
def isContainer : EntityKind → Bool
  | .group => true
  | .domain => true
  | _ => false

@[simp]
theorem ofName?_name (k : EntityKind) : ofName? k.name = some k := by cases k <;> rfl

theorem ofMemberWord?_memberWord {k : EntityKind} {w : String} (h : k.memberWord? = some w) :
    ofMemberWord? w = some k := by
  cases k <;> simp only [memberWord?, Option.some.injEq, reduceCtorEq] at h <;> subst h <;> rfl

end EntityKind

end AccessPolicy.Cedar
