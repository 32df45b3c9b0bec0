import AccessPolicy.Cedar.Expr

/-!
# Expressions as documents

An expression is an object with one key, which names its kind or operator. A constant of an
extension type is written as a call of its constructor with a text, and read back as a constant.

* `Literal.toJson`, `Literal.ofJson`: constants.
* `PatternElem.ofGlob`: patterns written as one text, with `*` as wildcard and `\` before a
  character that stands for itself.
* `Expr.toJson`, `Expr.ofJson`: expressions. Anything outside the closed set of forms is an error.
-/

namespace AccessPolicy.Cedar

/-- An object with one field. -/
def tagged (key : String) (body : Json) : Json := .object [(key, body)]

/-- A document that is not an object with one field. -/
def entryError (what : String) : Json → Error
  | .object [] => .unsupported (what ++ " has no operator key")
  | .object fields =>
    .unsupported (what ++ " has more than one operator key: "
      ++ ", ".intercalate (fields.map Prod.fst))
  | j => .unsupported (what ++ " must be an object, got " ++ j.compact)

/-- The one field of an object. -/
def singleEntry (what : String) : Json → Except Error (String × Json)
  | .object [entry] => .ok entry
  | j => .error (entryError what j)

/-! ## Constants -/

namespace Literal

/-- A constant of an extension type within another constant. -/
def extension (function : ExtensionFn) (text : String) : Json :=
  tagged "__extn" (.object [("fn", .string function.name), ("arg", .string text)])

mutual

/-- A constant as a document. -/
def toJson : Literal → Json
  | .bool b => .bool b
  | .long n => .int n.toInt
  | .string s => .string s
  | .entity e => tagged "__entity" e.toJson
  | .set items => .array (itemsToJson items)
  | .record fields => .object (fieldsToJson fields)
  | .decimal s => extension .decimal s
  | .ip s => extension .ip s

/-- Constants as documents. -/
def itemsToJson : List Literal → List Json
  | [] => []
  | l :: rest => toJson l :: itemsToJson rest

/-- Fields with constants as documents. -/
def fieldsToJson : List (String × Literal) → List (String × Json)
  | [] => []
  | (k, l) :: rest => (k, toJson l) :: fieldsToJson rest

end

/-- The constant of an extension type. -/
def ofExtension (j : Json) : Except Error Literal :=
  match j.stringField? "fn", j.stringField? "arg" with
  | some "decimal", some arg => .ok (.decimal arg)
  | some "ip", some arg => .ok (.ip arg)
  | _, _ => .error (.unsupported ("extension literal " ++ j.compact))

mutual

/-- The constant of a document. -/
def ofJson : Json → Except Error Literal
  | .bool b => .ok (.bool b)
  | .number n =>
    match n.int64? with
    | some i => .ok (.long i)
    | none => .error (.unsupported ("non-integer literal " ++ n.text))
  | .string s => .ok (.string s)
  | .array items => (itemsOfJson items).map .set
  | .object fields =>
    match fields.lookup "__entity", fields.lookup "__extn" with
    | some e, _ => (EntityUid.ofJson e).map .entity
    | none, some x => ofExtension x
    | none, none => (fieldsOfJson fields).map fun fs => .record (Fields.ofList fs)
  | .null => .error (.unsupported "null is not a literal")

/-- The constants of documents. -/
def itemsOfJson : List Json → Except Error (List Literal)
  | [] => .ok []
  | j :: rest => do
    let l ← ofJson j
    let ls ← itemsOfJson rest
    return l :: ls

/-- Fields with the constants of documents. -/
def fieldsOfJson : List (String × Json) → Except Error (List (String × Literal))
  | [] => .ok []
  | (k, j) :: rest => do
    let l ← ofJson j
    let ls ← fieldsOfJson rest
    return (k, l) :: ls

end

end Literal

/-! ## Patterns -/

namespace PatternElem

/-- A part of a pattern as a document. -/
def toJson : PatternElem → Json
  | .literal s => tagged "Literal" (.string s)
  | .wildcard => .string "Wildcard"

/-- A document that is no part of a pattern. -/
def unknown (j : Json) : Error := .unsupported ("pattern element " ++ j.compact)

/-- The part of a pattern of a document. -/
def ofJson (j : Json) : Except Error PatternElem :=
  match j with
  | .string "Wildcard" => .ok .wildcard
  | .object _ => do
    match ← singleEntry "pattern element" j with
    | ("Literal", .string s) => return .literal s
    | _ => .error (unknown j)
  | _ => .error (unknown j)

/-- A text as part of a pattern, unless it is empty. -/
def ofText (text : List Char) : List PatternElem :=
  if text.isEmpty then [] else [.literal (String.ofList text)]

/-- The pattern of a glob; `text` stands before it. -/
def ofGlobAfter (text : List Char) : List Char → List PatternElem
  | [] => ofText text
  | ['\\'] => ofText (text ++ ['\\'])
  | '\\' :: c :: rest => ofGlobAfter (text ++ [c]) rest
  | '*' :: rest => ofText text ++ .wildcard :: ofGlobAfter [] rest
  | c :: rest => ofGlobAfter (text ++ [c]) rest

/-- The pattern of a glob. -/
def ofGlob (glob : String) : List PatternElem := ofGlobAfter [] glob.toList

/-- The pattern of a document: a glob or a list of parts. -/
def listOfJson : Json → Except Error (List PatternElem)
  | .string glob => .ok (ofGlob glob)
  | .array items => items.mapM ofJson
  | j => .error (.unsupported ("like pattern " ++ j.compact))

end PatternElem

/-! ## Writing expressions -/

namespace Expr

/-- A constructor with its text. -/
def constructed (function : ExtensionFn) (text : String) : Json :=
  tagged function.name (.array [tagged "Value" (.string text)])

mutual

/-- An expression as a document. -/
def toJson : Expr → Json
  | .value (.decimal s) => constructed .decimal s
  | .value (.ip s) => constructed .ip s
  | .value l => tagged "Value" l.toJson
  | .var v => tagged "Var" (.string v.name)
  | .not a => tagged "!" (.object [("arg", toJson a)])
  | .neg a => tagged "neg" (.object [("arg", toJson a)])
  | .binary op a b => tagged op.name (.object [("left", toJson a), ("right", toJson b)])
  | .attr op a name => tagged op.name (.object [("left", toJson a), ("attr", .string name)])
  | .is a type => tagged "is" (.object [("left", toJson a), ("entity_type", .string type)])
  | .isIn a type e =>
    tagged "is" (.object [("left", toJson a), ("entity_type", .string type), ("in", toJson e)])
  | .like a pattern =>
    tagged "like" (.object [("left", toJson a),
      ("pattern", .array (pattern.map PatternElem.toJson))])
  | .ite c a b =>
    tagged "if-then-else" (.object [("if", toJson c), ("then", toJson a), ("else", toJson b)])
  | .set items => tagged "Set" (.array (itemsToJson items))
  | .record fields => tagged "Record" (.object (fieldsToJson fields))
  | .call f args => tagged f.name (.array (itemsToJson args))

/-- Expressions as documents. -/
def itemsToJson : List Expr → List Json
  | [] => []
  | e :: rest => toJson e :: itemsToJson rest

/-- Fields with expressions as documents. -/
def fieldsToJson : List (String × Expr) → List (String × Json)
  | [] => []
  | (k, e) :: rest => (k, toJson e) :: fieldsToJson rest

end

/-! ## Reading expressions -/

/-- What the values of an object are when read as expressions. -/
abbrev ReadFields := List (String × Except Error Expr)

/-- The expressions of a list that are all there, or the first error. -/
def collect : List (Except Error Expr) → Except Error (List Expr)
  | [] => .ok []
  | r :: rest => do
    let e ← r
    let es ← collect rest
    return e :: es

/-- The fields of a list that are all there, or the first error. -/
def collectFields : ReadFields → Except Error (List (String × Expr))
  | [] => .ok []
  | (k, r) :: rest => do
    let e ← r
    let es ← collectFields rest
    return (k, e) :: es

/-- A node of an operator that lacks a field. -/
def missing (op name : String) : Error :=
  .unsupported ("'" ++ op ++ "' node is missing '" ++ name ++ "'")

/-- The expression in a field of a node. -/
def child (fields : ReadFields) (op name : String) : Except Error Expr :=
  match fields.lookup name with
  | some r => r
  | none => .error (missing op name)

/-- The text in a field of a node. -/
def childText (body : Json) (op name : String) : Except Error String :=
  match body.field? name with
  | none => .error (missing op name)
  | some (.string s) => .ok s
  | some _ =>
    .error (.unsupported ("'" ++ op ++ "' node field '" ++ name ++ "' must be a string"))

/-- The expressions in the array of a node. -/
def childItems (body : Json) (read : List (Except Error Expr)) (op : String) :
    Except Error (List Expr) :=
  match body with
  | .array _ => collect read
  | _ => .error (.unsupported ("'" ++ op ++ "' node must hold an array"))

/-- A call. A constructor with one text is a constant. -/
def ofCall : ExtensionFn → List Expr → Expr
  | .decimal, [.value (.string s)] => .value (.decimal s)
  | .ip, [.value (.string s)] => .value (.ip s)
  | f, args => .call f args

/-- The expression of a node whose key is an operator or a function. -/
def ofOperator (key : String) (body : Json) (fields : ReadFields)
    (read : List (Except Error Expr)) : Except Error Expr :=
  match BinaryOp.ofName? key, AttrOp.ofName? key, ExtensionFn.ofName? key with
  | some op, _, _ => do
    let left ← child fields key "left"
    let right ← child fields key "right"
    return .binary op left right
  | none, some op, _ => do
    let left ← child fields key "left"
    let name ← childText body key "attr"
    return .attr op left name
  | none, none, some f => (childItems body read key).map (ofCall f)
  | none, none, none => .error (.unsupported ("operator '" ++ key ++ "'"))

/-- The expression of a node, given what the values of its body are as expressions. -/
def ofEntry (key : String) (body : Json) (fields : ReadFields)
    (read : List (Except Error Expr)) : Except Error Expr :=
  match key with
  | "Value" => (Literal.ofJson body).map .value
  | "Var" =>
    match body.string?.bind Var.ofName? with
    | some v => .ok (.var v)
    | none => .error (.unsupported ("variable " ++ body.compact))
  | "!" => (child fields key "arg").map .not
  | "neg" => (child fields key "arg").map .neg
  | "is" => do
    let left ← child fields key "left"
    let type ← childText body key "entity_type"
    match fields.lookup "in" with
    | none => return .is left type
    | some r => return .isIn left type (← r)
  | "like" => do
    let left ← child fields key "left"
    match body.field? "pattern" with
    | none => .error (missing key "pattern")
    | some p => return .like left (← PatternElem.listOfJson p)
  | "if-then-else" => do
    let c ← child fields key "if"
    let a ← child fields key "then"
    let b ← child fields key "else"
    return .ite c a b
  | "Set" => (childItems body read key).map .set
  | "Record" =>
    match body with
    | .object _ => (collectFields fields).map fun fs => .record (Fields.ofList fs)
    | _ => .error (.unsupported "'Record' node must hold an object")
  | _ => ofOperator key body fields read

mutual

/-- The expression of a document. -/
def ofJson : Json → Except Error Expr
  | .object [(key, body)] => ofEntry key body (fieldsOf body) (itemsOf body)
  | j => .error (entryError "expression node" j)

/-- The values of an object read as expressions. -/
def fieldsOf : Json → ReadFields
  | .object fields => readFields fields
  | _ => []

/-- The items of an array read as expressions. -/
def itemsOf : Json → List (Except Error Expr)
  | .array items => readItems items
  | _ => []

/-- The values of fields read as expressions. -/
def readFields : List (String × Json) → ReadFields
  | [] => []
  | (k, j) :: rest => (k, ofJson j) :: readFields rest

/-- Documents read as expressions. -/
def readItems : List Json → List (Except Error Expr)
  | [] => []
  | j :: rest => ofJson j :: readItems rest

end

end Expr

end AccessPolicy.Cedar
