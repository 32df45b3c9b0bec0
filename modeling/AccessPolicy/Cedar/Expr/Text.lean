import AccessPolicy.Cedar.Expr
import AccessPolicy.Cedar.Ident

/-!
# Expressions as text

The text of an expression, with an operand in parentheses where it is an operator of its own.
`Style` holds the choices in which the text of a condition (`Style.condition`) and the body of a
written policy (`Style.policy`) differ.
-/

namespace AccessPolicy.Cedar

/-- The choices of a text. -/
structure Style where
  /-- A negative integer stands in parentheses. -/
  parenthesizedLong : Bool
  /-- The operand of a negation always stands in parentheses. -/
  parenthesizedNeg : Bool
  /-- A chained operator may follow itself without parentheses. -/
  chained : Bool
  /-- The names of attributes that are not quoted. -/
  bareAttr : String → Bool
  /-- The keys of records that are not quoted. -/
  bareKey : String → Bool
  /-- The text of a pattern escapes combining marks everywhere, not only at the start of a part. -/
  markedPattern : Bool

/-- The text of a condition on its own. -/
def Style.condition : Style where
  parenthesizedLong := false
  parenthesizedNeg := false
  chained := false
  bareAttr := isIdent
  bareKey _ := false
  markedPattern := false

/-- The body of a condition in a written policy. -/
def Style.policy : Style where
  parenthesizedLong := true
  parenthesizedNeg := true
  chained := true
  bareAttr := isName
  bareKey := isName
  markedPattern := true

/-- A text, in parentheses if need be. -/
def parenthesized (needed : Bool) (s : String) : String := if needed then "(" ++ s ++ ")" else s

/-- Texts with commas between them. -/
def commas (parts : List String) : String := ", ".intercalate parts

/-! ## Constants -/

namespace Literal

mutual

/-- The text of a constant. -/
def render (st : Style) : Literal → String
  | .bool true => "true"
  | .bool false => "false"
  | .long n => parenthesized (st.parenthesizedLong && n < 0) (toString n.toInt)
  | .string s => Text.quoted s
  | .entity e => e.text
  | .set items => "[" ++ commas (renderItems st items) ++ "]"
  | .record fields => "\x7b" ++ commas (renderFields st fields) ++ "\x7d"
  | .decimal s => "decimal(" ++ Text.quoted s ++ ")"
  | .ip s => "ip(" ++ Text.quoted s ++ ")"

/-- The texts of constants. -/
def renderItems (st : Style) : List Literal → List String
  | [] => []
  | l :: rest => render st l :: renderItems st rest

/-- The texts of fields with constants. -/
def renderFields (st : Style) : List (String × Literal) → List String
  | [] => []
  | (k, l) :: rest => (Text.quoted k ++ ": " ++ render st l) :: renderFields st rest

end

/-- The text of a constant in a condition. -/
def display (l : Literal) : String := l.render .condition

end Literal

/-! ## Patterns -/

/-- Puts a backslash before every star. -/
def escapeStars (cs : List Char) : List Char :=
  cs.flatMap fun c => if c = '*' then ['\\', '*'] else [c]

/-- The text of a part of a pattern, between the quotes. -/
def PatternElem.render (st : Style) : PatternElem → List Char
  | .wildcard => ['*']
  | .literal s =>
    escapeStars
      (if st.markedPattern then s.toList.flatMap (Text.escapeChar Text.bothQuotes true)
      else Text.escapeChars s.toList)

/-! ## Expressions -/

namespace Expr

/-- The expression is an application of an operator that may follow itself. -/
def isChainOf (op : BinaryOp) : Expr → Bool
  | .binary other _ _ => op.isChained && other = op
  | _ => false

/-- The left operand of an operator needs parentheses. -/
def needsLeftParens (st : Style) (op : BinaryOp) (left : Expr) : Bool :=
  left.isCompound && !(st.chained && left.isChainOf op)

/-- A name behind a key word or in brackets, quoted unless it may stand alone. -/
def nameText (bare : String → Bool) (name : String) : String :=
  if bare name then name else Text.quoted name

mutual

/-- The text of an expression. -/
def render (st : Style) : Expr → String
  | .value l => l.render st
  | .var v => v.name
  | .not a => "!" ++ parenthesized a.isCompound (render st a)
  | .neg a => "-" ++ parenthesized (st.parenthesizedNeg || a.isCompound) (render st a)
  | .binary op a b =>
    if op.isMethod then
      parenthesized a.isCompound (render st a) ++ "." ++ op.name ++ "(" ++ render st b ++ ")"
    else
      parenthesized (needsLeftParens st op a) (render st a) ++ " " ++ op.name ++ " "
        ++ parenthesized b.isCompound (render st b)
  | .attr .access a name =>
    parenthesized a.isCompound (render st a)
      ++ (if st.bareAttr name then "." ++ name else "[" ++ Text.quoted name ++ "]")
  | .attr .has a name =>
    parenthesized a.isCompound (render st a) ++ " has " ++ nameText st.bareAttr name
  | .is a type => parenthesized a.isCompound (render st a) ++ " is " ++ type
  | .isIn a type e =>
    parenthesized a.isCompound (render st a) ++ " is " ++ type ++ " in "
      ++ parenthesized e.isCompound (render st e)
  | .like a pattern =>
    parenthesized a.isCompound (render st a) ++ " like \""
      ++ String.ofList (pattern.flatMap (PatternElem.render st)) ++ "\""
  | .ite c a b => "if " ++ render st c ++ " then " ++ render st a ++ " else " ++ render st b
  | .set items => "[" ++ commas (renderItems st items) ++ "]"
  | .record fields => "\x7b" ++ commas (renderFields st fields) ++ "\x7d"
  | .call f [] => f.name ++ "()"
  | .call f (a :: args) =>
    if f.isConstructor then
      f.name ++ "(" ++ commas (render st a :: renderItems st args) ++ ")"
    else
      parenthesized a.isCompound (render st a) ++ "." ++ f.name ++ "("
        ++ commas (renderItems st args) ++ ")"

/-- The texts of expressions. -/
def renderItems (st : Style) : List Expr → List String
  | [] => []
  | e :: rest => render st e :: renderItems st rest

/-- The texts of fields with expressions. -/
def renderFields (st : Style) : List (String × Expr) → List String
  | [] => []
  | (k, e) :: rest => (nameText st.bareKey k ++ ": " ++ render st e) :: renderFields st rest

end

/-- The text of a condition. -/
def display (e : Expr) : String := e.render .condition

end Expr

end AccessPolicy.Cedar
