import AccessPolicy.Cedar.Expr.Json
import AccessPolicy.Cedar.Source.Parser
import AccessPolicy.Cedar.Source.Quoted

/-!
# Expressions of policy text

The grammar of expressions. Parsers return the document of an expression, so that text and documents
share one set of forms. From the loosest to the tightest there are: `if`, `||`, `&&`, one relation,
`+` and `-`, `*`, up to four `!` or `-`, and a primary with attributes and methods behind it.

* `expr` parses an expression. Its number bounds the nesting.
-/

namespace AccessPolicy.Cedar.Source

/-! ## Documents -/

/-- The document of a constant. -/
def constant (value : Json) : Json := tagged "Value" value

/-- The document of an operator with two operands. -/
def applied (op : String) (left right : Json) : Json :=
  tagged op (.object [("left", left), ("right", right)])

/-- The document of an operator with one operand. -/
def appliedTo (op : String) (arg : Json) : Json := tagged op (.object [("arg", arg)])

/-- The document of an attribute. -/
def access (left : Json) (name : String) : Json :=
  tagged AttrOp.access.name (.object [("left", left), ("attr", .string name)])

/-- The document of a test for an attribute, or for one behind a path of attributes. -/
def hasAttribute (left : Json) : List String → Json
  | [name] => tagged AttrOp.has.name (.object [("left", left), ("attr", .string name)])
  | names => tagged AttrOp.has.name (.object [("left", left), ("attr", Json.strings names)])

/-- The document of a method call. -/
def method? (left : Json) (name : String) (args : List Json) : Option Json :=
  match BinaryOp.ofName? name, ExtensionFn.ofName? name, args with
  | some op, _, [arg] => if op.isMethod then some (applied name left arg) else none
  | none, some f, args =>
    if f.isConstructor then none else some (tagged name (.array (left :: args)))
  | none, none, [] => if name = "isEmpty" then some (appliedTo name left) else none
  | _, _, _ => none

/-- The document of a call that is no method. -/
def construct? (name : String) (args : List Json) : Option Json :=
  match ExtensionFn.ofName? name with
  | some f => if f.isConstructor then some (tagged name (.array args)) else none
  | none => none

/-! ## Primaries -/

/-- Integers are below this bound, and not below its negative. -/
def longBound : Nat := Decimal.pow2 63

/-- A key of a record, as a name or quoted. -/
def recordKey : Parser String
  | .text raw :: rest => (unescape raw).map (·, rest)
  | ts => name ts

/-- A field of a record. -/
def recordField (sub : Parser Json) : Parser (String × Json) := fun ts => do
  let (key, rest) ← recordKey ts
  let rest ← behind .colon rest
  let (value, rest) ← sub rest
  some ((key, value), rest)

/-- The document of a record with these fields, in the order of their keys. Every key may occur
    once. -/
def recordOf? (fields : List (String × Json)) : Option Json :=
  if (fields.map Prod.fst).Nodup then some (tagged "Record" (.object (Fields.ofList fields)))
  else none

/-- What begins with a path: an entity, a variable, or a call. -/
def named (sub : Parser Json) : Parser Json := fun ts => do
  match ← path ts with
  | ((words, some raw), rest) =>
    let id ← unescape raw
    some (constant (tagged "__entity" (EntityUid.toJson ⟨pathText words, id⟩)), rest)
  | (([word], none), .mark .openParen :: rest) =>
    if (Var.ofName? word).isSome then none
    else do
      let (args, rest) ← commaList sub .closeParen rest
      let call ← construct? word args
      some (call, rest)
  | (([word], none), rest) => (Var.ofName? word).map fun v => (tagged "Var" (.string v.name), rest)
  | _ => none

/-- A primary. -/
def primary (sub : Parser Json) : Parser Json
  | .word "true" :: rest => some (constant (.bool true), rest)
  | .word "false" :: rest => some (constant (.bool false), rest)
  | .number n :: rest => if n < longBound then some (constant (.nat n), rest) else none
  | .text raw :: rest => (unescape raw).map fun s => (constant (.string s), rest)
  | .mark .openParen :: rest => do
    let (e, rest) ← sub rest
    let rest ← behind .closeParen rest
    some (e, rest)
  | .mark .openBracket :: rest => do
    let (items, rest) ← commaList sub .closeBracket rest
    some (tagged "Set" (.array items), rest)
  | .mark .openBrace :: rest => do
    let (fields, rest) ← commaList (recordField sub) .closeBrace rest
    let e ← recordOf? fields
    some (e, rest)
  | ts => named sub ts

/-! ## Members and signs -/

/-- An attribute or a method behind an expression. -/
def memberStep (sub : Parser Json) (e : Json) : Parser (Option Json)
  | .mark .dot :: .word w :: .mark .openParen :: rest => do
    let (args, rest) ← commaList sub .closeParen rest
    let call ← method? e w args
    goOn (some (call, rest))
  | .mark .dot :: .word w :: rest => if isName w then goOn (some (access e w, rest)) else none
  | .mark .dot :: _ => none
  | .mark .openBracket :: .text raw :: .mark .closeBracket :: rest => do
    let key ← unescape raw
    goOn (some (access e key, rest))
  | .mark .openBracket :: _ => none
  | .mark .openParen :: _ => none
  | ts => stop ts

/-- A primary with attributes and methods behind it. -/
def member (sub : Parser Json) : Parser Json := fun ts => do
  let (e, rest) ← primary sub ts
  repeated (memberStep sub) e rest

/-- The tokens go on with an attribute or a method. -/
def goesOn (ts : List Token) : Bool :=
  startsWith .dot ts || startsWith .openBracket ts || startsWith .openParen ts

/-- The operand of a sign that stands next to it. A number takes the sign as its own. -/
def negated (sub : Parser Json) : Parser Json := fun ts =>
  match ts with
  | .number n :: rest =>
    if goesOn rest then (member sub ts).map fun (e, rest) => (appliedTo "neg" e, rest)
    else if n ≤ longBound then some (constant (.int (-n)), rest)
    else none
  | _ => (member sub ts).map fun (e, rest) => (appliedTo "neg" e, rest)

/-- A document put under an operator a number of times. -/
def nest (op : String) (n : Nat) (e : Json) : Json := n.repeat (appliedTo op) e

/-- The most signs in a row. -/
def maxSigns : Nat := 4

/-- How often a mark stands at the front. -/
def countMark (m : Mark) (ts : List Token) : Nat := (ts.takeWhile fun t => t = .mark m).length

/-- A member with signs before it. -/
def signed (sub : Parser Json) : Parser Json := fun ts =>
  let nots := countMark .not ts
  let minuses := countMark .minus ts
  if maxSigns < nots ∨ maxSigns < minuses then none
  else if 0 < nots then
    (member sub (ts.drop nots)).map fun (e, rest) => (nest "!" nots e, rest)
  else if 0 < minuses then
    (negated sub (ts.drop minuses)).map fun (e, rest) => (nest "neg" (minuses - 1) e, rest)
  else member sub ts

/-! ## Operators -/

/-- One more operand of a chain. -/
def chainStep (op? : Mark → Option BinaryOp) (operand : Parser Json) (left : Json) :
    Parser (Option Json)
  | .mark m :: rest =>
    match op? m with
    | none => stop rest
    | some op => goOn ((operand rest).map fun (right, rest) => (applied op.name left right, rest))
  | ts => stop ts

/-- Operands with operators between them, which group to the left. -/
def chain (op? : Mark → Option BinaryOp) (operand : Parser Json) : Parser Json := fun ts => do
  let (e, rest) ← operand ts
  repeated (chainStep op? operand) e rest

/-- The operator of products. -/
def productOp? : Mark → Option BinaryOp
  | .times => some .mul
  | _ => none

/-- The operators of sums. -/
def sumOp? : Mark → Option BinaryOp
  | .plus => some .add
  | .minus => some .sub
  | _ => none

/-- The operators of relations. -/
def relationOp? : Mark → Option BinaryOp
  | .equal => some .equals
  | .notEqual => some .notEquals
  | .less => some .less
  | .lessEqual => some .lessEq
  | .greater => some .greater
  | .greaterEqual => some .greaterEq
  | _ => none

/-- The operator of conjunctions. -/
def andOp? : Mark → Option BinaryOp
  | .and => some .and
  | _ => none

/-- The operator of disjunctions. -/
def orOp? : Mark → Option BinaryOp
  | .or => some .or
  | _ => none

/-- A sum. -/
def sum (sub : Parser Json) : Parser Json := chain sumOp? (chain productOp? (signed sub))

/-! ## Relations -/

/-- Names behind dots. -/
def attrRest (names : List String) : Parser (List String)
  | .mark .dot :: .word w :: rest => if isName w then attrRest (names ++ [w]) rest else none
  | .mark .dot :: _ => none
  | ts => some (names, ts)

/-- The attribute of a test: a quoted text, or names with dots between them. -/
def attrPath : Parser (List String)
  | .text raw :: rest => (unescape raw).map fun s => ([s], rest)
  | ts => do
    let (w, rest) ← name ts
    attrRest [w] rest

/-- A pattern. -/
def pattern : Parser (List PatternElem)
  | .text raw :: rest => (patternOf raw).map (·, rest)
  | _ => none

/-- The name of a type, for which a word that is a variable elsewhere may stand. -/
def typeName : Parser String := fun ts => do
  match ← path ts with
  | ((words, none), rest) => some (pathText words, rest)
  | _ => none

/-- A test for a type, perhaps with a place. -/
def typeTest (sub : Parser Json) (left : Json) : Parser Json := fun ts => do
  let (type, rest) ← typeName ts
  let fields := [("left", left), ("entity_type", Json.string type)]
  match behindWord "in" rest with
  | none => some (tagged "is" (.object fields), rest)
  | some rest => do
    let (place, rest) ← sum sub rest
    some (tagged "is" (.object (fields ++ [("in", place)])), rest)

/-- A sum, perhaps in one relation. -/
def relation (sub : Parser Json) : Parser Json := fun ts => do
  let (left, rest) ← sum sub ts
  match rest with
  | .mark m :: after =>
    match relationOp? m with
    | none => some (left, rest)
    | some op => (sum sub after).map fun (right, rest) => (applied op.name left right, rest)
  | .word "in" :: after =>
    (sum sub after).map fun (right, rest) => (applied BinaryOp.within.name left right, rest)
  | .word "has" :: after =>
    (attrPath after).map fun (names, rest) => (hasAttribute left names, rest)
  | .word "like" :: after =>
    (pattern after).map fun (elems, rest) =>
      (tagged "like" (.object [("left", left),
        ("pattern", .array (elems.map PatternElem.toJson))]), rest)
  | .word "is" :: after => typeTest sub left after
  | _ => some (left, rest)

/-! ## Expressions -/

/-- A disjunction. -/
def disjunction (sub : Parser Json) : Parser Json := chain orOp? (chain andOp? (relation sub))

/-- An expression. The number bounds how deep expressions stand within it. -/
def expr : Nat → Parser Json
  | 0, _ => none
  | depth + 1, .word "if" :: rest => do
    let (c, rest) ← expr depth rest
    let rest ← behindWord "then" rest
    let (yes, rest) ← expr depth rest
    let rest ← behindWord "else" rest
    let (no, rest) ← expr depth rest
    some (tagged "if-then-else" (.object [("if", c), ("then", yes), ("else", no)]), rest)
  | depth + 1, ts => disjunction (expr depth) ts

end AccessPolicy.Cedar.Source
