import AccessPolicy.Cedar.Policy
import AccessPolicy.Cedar.Source.Expr

/-!
# Policy text

A text holds policies one behind the other. A policy has annotations, an effect, the scopes of its
principal, action and resource in this order, and conditions. A slot in place of an entity makes it
a template, which is checked like a policy but is none.

* `Policy.countText`: how many policies a text holds.
* `Policy.listOfText`: the policies of a text. Forms of expressions that only text has are errors.
-/

namespace AccessPolicy.Cedar.Source

/-- A policy as it stands in a text. A scope with a slot is left open. -/
structure Draft where
  effect : Effect
  annotations : List (String × String)
  principal : Option Scope
  action : Scope
  resource : Option Scope
  conditions : List (ConditionKind × Json)

/-! ## Annotations -/

/-- The text in parentheses behind the key of an annotation. Without one it is empty. -/
def annotationValue : Parser String
  | .mark .openParen :: .text raw :: .mark .closeParen :: rest => (unescape raw).map (·, rest)
  | .mark .openParen :: _ => none
  | ts => some ("", ts)

/-- One more annotation. Any word may be its key. -/
def annotationStep (done : List (String × String)) : Parser (Option (List (String × String)))
  | .mark .at :: .word key :: rest =>
    goOn ((annotationValue rest).map fun (value, rest) => (done ++ [(key, value)], rest))
  | .mark .at :: _ => none
  | ts => stop ts

/-- Annotations, in the order of their keys. Every key may occur once. -/
def annotations : Parser (List (String × String)) := fun ts => do
  let (found, rest) ← repeated annotationStep [] ts
  if (found.map Prod.fst).Nodup then some (Fields.ofList found, rest) else none

/-! ## Scopes -/

/-- An entity. -/
def entity : Parser EntityUid := fun ts => do
  match ← path ts with
  | ((words, some raw), rest) =>
    let id ← unescape raw
    some (⟨pathText words, id⟩, rest)
  | _ => none

/-- An entity, or the slot of a variable. -/
def entityOrSlot (var : Var) : Parser (Option EntityUid)
  | .slot name :: rest => if name = var.name then some (none, rest) else none
  | ts => (entity ts).map fun (e, rest) => (some e, rest)

/-- The scope of a principal or resource. -/
def scope (var : Var) : Parser (Option Scope) := fun ts => do
  let rest ← behindWord var.name ts
  match rest with
  | .mark .equal :: rest =>
    let (e, rest) ← parenthesized (entityOrSlot var) rest
    some (e.map .eq, rest)
  | .word "in" :: rest =>
    let (e, rest) ← parenthesized (entityOrSlot var) rest
    some (e.map .within, rest)
  | .word "is" :: rest =>
    let (type, rest) ← typeName rest
    match behindWord "in" rest with
    | none => some (some (.is type), rest)
    | some rest =>
      let (e, rest) ← parenthesized (entityOrSlot var) rest
      some (e.map (.isWithin type), rest)
  | rest => some (some .all, rest)

/-- The entity of an action. -/
def actionEntity : Parser EntityUid := fun ts => do
  let (e, rest) ← parenthesized entity ts
  if baseName e.type = EntityKind.action.name then some (e, rest) else none

/-- Entities of actions in brackets. -/
def actionEntities : Parser (List EntityUid)
  | .mark .openBracket :: rest => commaList actionEntity .closeBracket rest
  | ts => (actionEntity ts).map fun (e, rest) => ([e], rest)

/-- The scope of actions that are one of some entities or below them. -/
def withinScope : List EntityUid → Scope
  | [e] => .within e
  | es => .withinAny es

/-- The scope of an action. -/
def actionScope : Parser Scope := fun ts => do
  let rest ← behindWord Var.action.name ts
  match rest with
  | .mark .equal :: rest => (actionEntity rest).map fun (e, rest) => (.eq e, rest)
  | .word "in" :: rest =>
    (parenthesized actionEntities rest).map fun (es, rest) => (withinScope es, rest)
  | rest => some (.all, rest)

/-! ## Policies -/

/-- One more condition. -/
def conditionStep (done : List (ConditionKind × Json)) :
    Parser (Option (List (ConditionKind × Json)))
  | .word w :: rest => do
    let kind ← ConditionKind.ofName? w
    let rest ← behind .openBrace rest
    let (body, rest) ← expr rest.length rest
    let rest ← behind .closeBrace rest
    goOn (some (done ++ [(kind, body)], rest))
  | ts => stop ts

/-- A comma, if there is one. -/
def skipComma (ts : List Token) : List Token := (behind .comma ts).getD ts

/-- An effect. -/
def effect : Parser Effect
  | .word w :: rest => (Effect.ofName? w).map (·, rest)
  | _ => none

/-- A policy. -/
def draft : Parser Draft := fun ts => do
  let (annotations, rest) ← annotations ts
  let (effect, rest) ← effect rest
  let rest ← behind .openParen rest
  let (principal, rest) ← scope .principal rest
  let rest ← behind .comma rest
  let (action, rest) ← actionScope rest
  let rest ← behind .comma rest
  let (resource, rest) ← scope .resource rest
  let rest ← behind .closeParen (skipComma rest)
  let (conditions, rest) ← repeated conditionStep [] rest
  let rest ← behind .semicolon rest
  some ({ effect, annotations, principal, action, resource, conditions }, rest)

/-- One more policy. -/
def draftStep (done : List Draft) (ts : List Token) : Option (Option (List Draft) × List Token) :=
  if ts.isEmpty then stop ts
  else goOn ((draft ts).map fun (d, rest) => (done ++ [d], rest))

/-- The policies and templates of a text. -/
def drafts (text : String) : Option (List Draft) := do
  let ts ← Token.scan text
  let (found, _) ← repeated draftStep [] ts
  some found

namespace Draft

/-- There is a slot in a scope. -/
def isTemplate (d : Draft) : Bool := d.principal.isNone || d.resource.isNone

/-- The policy of a draft. The slots of a template are left without a limit. -/
def policy (d : Draft) : Except Error Policy := do
  let clauses ← d.conditions.mapM fun c => (Expr.ofJson c.2).map (Clause.mk c.1)
  return {
    effect := d.effect
    annotations := d.annotations
    principal := d.principal.getD .all
    action := d.action
    resource := d.resource.getD .all
    clauses }

end Draft

end AccessPolicy.Cedar.Source

namespace AccessPolicy.Cedar.Policy

open Source (Draft drafts)

/-- The drafts of a text that are no templates. -/
def draftsOf (text : String) : Except Error (List Draft) :=
  match drafts text with
  | some ds => .ok (ds.filter fun d => !d.isTemplate)
  | none => .error .malformed

/-- The number of policies of a text. -/
def countText (text : String) : Except Error Nat := (draftsOf text).map List.length

/-- The policies of a text. -/
def listOfText (text : String) : Except Error (List Policy) := do
  let ds ← draftsOf text
  ds.mapM Draft.policy

/-- What reading a text reports. -/
def textEvents (text : String) : List Event :=
  match listOfText text with
  | .ok ps => [.cedarParsed .text ps.length]
  | .error _ => []

end AccessPolicy.Cedar.Policy
