import AccessPolicy.Cedar.Ident
import AccessPolicy.Cedar.Policy

/-!
# Written policy text

Policies as text, with an empty line between two. Annotations come first, each on a line of its own
and in the order of their keys.

Not every policy has a text: names of types and keys of annotations must be written as words, no
list of entities may limit a principal or resource, and no type an action.

* `Policy.isPrintable`: the policies that have a text.
* `Policy.printed`, `Policy.listToText`: the text of a policy and of policies.
-/

namespace AccessPolicy.Cedar

/-! ## What can be printed -/

/-- The type of an entity can be written. -/
def EntityUid.isPrintable (e : EntityUid) : Bool := isTypeName e.type

namespace Literal

/-- The key under which a record that has no other would be text of an expression. -/
def expressionKey : String := "__expr"

/-- A record is text of an expression, which constants may not be. -/
def isExpressionText : List (String × Literal) → Bool
  | [(key, .string _)] => key = expressionKey
  | _ => false

mutual

/-- A constant can be written. -/
def isPrintable : Literal → Bool
  | .entity e => e.isPrintable
  | .set items => printableItems items
  | .record fields => !isExpressionText fields && printableFields fields
  | _ => true

/-- All items can be written. -/
def printableItems : List Literal → Bool
  | [] => true
  | l :: rest => isPrintable l && printableItems rest

/-- The values of all fields can be written. -/
def printableFields : List (String × Literal) → Bool
  | [] => true
  | (_, l) :: rest => isPrintable l && printableFields rest

end

end Literal

namespace Expr

mutual

/-- An expression can be written. -/
def isPrintable : Expr → Bool
  | .value l => l.isPrintable
  | .var _ => true
  | .not a => isPrintable a
  | .neg a => isPrintable a
  | .binary _ a b => isPrintable a && isPrintable b
  | .attr _ a _ => isPrintable a
  | .is a type => isPrintable a && isTypeName type
  | .isIn a type e => isPrintable a && isTypeName type && isPrintable e
  | .like a _ => isPrintable a
  | .ite c a b => isPrintable c && isPrintable a && isPrintable b
  | .set items => printableItems items
  | .record fields => printableFields fields
  | .call _ args => printableItems args

/-- All items can be written. -/
def printableItems : List Expr → Bool
  | [] => true
  | e :: rest => isPrintable e && printableItems rest

/-- The values of all fields can be written. -/
def printableFields : List (String × Expr) → Bool
  | [] => true
  | (_, e) :: rest => isPrintable e && printableFields rest

end

end Expr

namespace Scope

/-- A scope of a principal or resource can be written. -/
def isPrintable : Scope → Bool
  | .all => true
  | .eq e => e.isPrintable
  | .within e => e.isPrintable
  | .withinAny _ => false
  | .is type => isTypeName type
  | .isWithin type e => isTypeName type && e.isPrintable

/-- The type of an entity is that of actions in some namespace. -/
def isAction (e : EntityUid) : Bool := e.isPrintable && baseName e.type = EntityKind.action.name

/-- A scope of an action can be written. -/
def isPrintableAction : Scope → Bool
  | .all => true
  | .eq e => isAction e
  | .within e => isAction e
  | .withinAny es => es.all isAction
  | _ => false

end Scope

namespace Policy

/-- A policy can be written. -/
def isPrintable (p : Policy) : Bool :=
  (p.annotations.all fun a => isIdent a.1) && p.principal.isPrintable && p.action.isPrintableAction
    && p.resource.isPrintable && p.clauses.all fun c => c.body.isPrintable

end Policy

/-! ## Printing -/

/-- The text of a scope behind its variable. -/
def Scope.printed : Scope → String
  | .all => ""
  | .eq e => " == " ++ e.text
  | .within e => " in " ++ e.text
  | .withinAny es => " in [" ++ commas (es.map EntityUid.text) ++ "]"
  | .is type => " is " ++ type
  | .isWithin type e => " is " ++ type ++ " in " ++ e.text

/-- The text of a condition. -/
def Clause.printed (c : Clause) : String :=
  " " ++ c.kind.name ++ " \x7b " ++ c.body.render .policy ++ " \x7d"

namespace Policy

/-- The text of an annotation. -/
def printedAnnotation (a : String × String) : String :=
  "@" ++ a.1 ++ "(" ++ Text.quoted a.2 ++ ")\n"

/-- The text of a policy. -/
def printed (p : Policy) : String :=
  String.join ((Fields.ofList p.annotations).map printedAnnotation) ++ p.effect.name
    ++ "(principal" ++ p.principal.printed ++ ", action" ++ p.action.printed ++ ", resource"
    ++ p.resource.printed ++ ")" ++ String.join (p.clauses.map Clause.printed) ++ ";"

/-- The text of policies, if every one of them has one. -/
def listToText (ps : List Policy) : Except Error String :=
  if ps.all isPrintable then .ok ("\n\n".intercalate (ps.map printed)) else .error .unprintable

end Policy

end AccessPolicy.Cedar
