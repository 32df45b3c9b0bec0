import AccessPolicy.Fields
import AccessPolicy.Json.Basic

/-!
# Document syntax

The tree of a well-formed text before its values are checked: objects still hold every field of the
text, and a number or a text without a value (a double out of range, half of a surrogate pair) is a
leaf of its own. A reader that passes over a part of a document need not care about such leaves.

* `toJson?` is the document of a tree. It refuses leaves without a value and more than `maxDepth`
  levels of nesting.
* `Layout` says which fields a record has, and `project?` keeps only those. Fields that no record
  knows are not looked at, and a known field may stand there once.
-/

namespace AccessPolicy.Json

/-- The tree of a text. -/
inductive Syntax where
  | null
  | bool (value : Bool)
  | number (value : Option Number)
  | string (value : Option String)
  | array (items : List Syntax)
  | object (fields : List (Option String × Syntax))
deriving Repr, Inhabited

/-- The levels of arrays and objects that a document may have. -/
def maxDepth : Nat := 127

namespace Syntax

mutual

/-- The document of a tree with at most `depth` levels. -/
def toJsonWithin (depth : Nat) : Syntax → Option Json
  | .null => some .null
  | .bool b => some (.bool b)
  | .number n => n.map .number
  | .string s => s.map .string
  | .array items => if depth = 0 then none else (itemsWithin (depth - 1) items).map .array
  | .object fields => if depth = 0 then none else (fieldsWithin (depth - 1) [] fields).map .object

/-- The documents of the items of an array. -/
def itemsWithin (depth : Nat) : List Syntax → Option (List Json)
  | [] => some []
  | s :: rest => do
    let j ← toJsonWithin depth s
    let js ← itemsWithin depth rest
    some (j :: js)

/-- The fields of an object, added to those before them. -/
def fieldsWithin (depth : Nat) (before : List (String × Json)) :
    List (Option String × Syntax) → Option (List (String × Json))
  | [] => some before
  | (k, s) :: rest => do
    let key ← k
    let j ← toJsonWithin depth s
    fieldsWithin depth (Fields.set key j before) rest

end

/-- The document of a tree. -/
def toJson? (s : Syntax) : Option Json := s.toJsonWithin maxDepth

end Syntax

/-- What a value is read as: anything, a list, one of several names, or a record with known
    fields. -/
inductive Layout where
  | value
  | list (item : Layout)
  | choice
  | record (fields : List (String × Layout))
deriving Inhabited

namespace Layout

/-- The layout of a field of a record. -/
def field? (name : String) : Layout → Option Layout
  | .record fields => fields.lookup name
  | _ => none

/-- The layout of an item of an array: that of all items of a list, or that of the field at the same
    place of a record. -/
def item (index : Nat) : Layout → Layout
  | .list l => l
  | .record fields => (fields[index]?).elim .value Prod.snd
  | _ => .value

end Layout

namespace Syntax

/-- All keys of an object have values. -/
def keysComplete (fields : List (Option String × Syntax)) : Bool := fields.all fun f => f.1.isSome

mutual

/-- The document of a tree that is read as a layout says. Unknown fields of a record are left
    out. -/
def projectWithin (depth : Nat) (layout : Layout) : Syntax → Option Json
  | .null => some .null
  | .bool b => some (.bool b)
  | .number n => n.map .number
  | .string s => s.map .string
  | .array items =>
    if depth = 0 then none else (projectItems (depth - 1) layout 0 items).map .array
  | .object fields =>
    if depth = 0 || !keysComplete fields then none
    else
      match layout with
      | .record _ => (projectFields (depth - 1) layout [] fields).map .object
      | .choice =>
        if fields.length = 1 then (fieldsWithin (depth - 1) [] fields).map .object else none
      | _ => (fieldsWithin (depth - 1) [] fields).map .object

/-- The items of an array from a place on. -/
def projectItems (depth : Nat) (layout : Layout) (index : Nat) : List Syntax → Option (List Json)
  | [] => some []
  | s :: rest => do
    let j ← projectWithin depth (layout.item index) s
    let js ← projectItems depth layout (index + 1) rest
    some (j :: js)

/-- The known fields of a record, added to those before them. -/
def projectFields (depth : Nat) (layout : Layout) (before : List (String × Json)) :
    List (Option String × Syntax) → Option (List (String × Json))
  | [] => some before
  | (k, s) :: rest =>
    match k.bind layout.field? with
    | none => projectFields depth layout before rest
    | some l =>
      let key := k.getD ""
      if (before.lookup key).isSome then none
      else do
        let j ← projectWithin depth l s
        projectFields depth layout (before ++ [(key, j)]) rest

end

/-- The document of a tree that is read as a layout says. -/
def project? (layout : Layout) (s : Syntax) : Option Json := s.projectWithin maxDepth layout

end Syntax

end AccessPolicy.Json
