import AccessPolicy.Cedar.Source.Token

/-!
# Parsers on tokens

A parser takes tokens from the front of a list and returns what they mean with those that are left.
There is no result when they do not fit. Nothing is tried twice: one token of look-ahead decides.

* `repeated`: steps as long as they find something to do.
* `commaList`: items with commas between them up to a closing mark.
* `parenthesized`: something in any number of parentheses.
-/

namespace AccessPolicy.Cedar.Source

/-- What tokens mean, and those that are left. -/
abbrev Parser (α : Type) := List Token → Option (α × List Token)

/-- The tokens behind a mark. -/
def behind (m : Mark) : List Token → Option (List Token)
  | .mark n :: rest => if n = m then some rest else none
  | _ => none

/-- The tokens behind a word. -/
def behindWord (w : String) : List Token → Option (List Token)
  | .word v :: rest => if v = w then some rest else none
  | _ => none

/-- The next token is a mark. -/
def startsWith (m : Mark) (ts : List Token) : Bool := ts.head? = some (.mark m)

/-- A name. -/
def name : Parser String
  | .word w :: rest => if isName w then some (w, rest) else none
  | _ => none

/-! ## Repetition -/

/-- Goes on from a value as long as a step finds something to do, at most a number of times. A step
    that finds nothing returns no value. -/
def repeatedWithin {α : Type} (step : α → Parser (Option α)) : Nat → α → Parser α
  | 0, a, ts => some (a, ts)
  | n + 1, a, ts =>
    match step a ts with
    | none => none
    | some (none, _) => some (a, ts)
    | some (some b, rest) => repeatedWithin step n b rest

/-- Goes on from a value as long as a step finds something to do. Every such step takes a token, so
    that their number bounds the steps. -/
def repeated {α : Type} (step : α → Parser (Option α)) (a : α) : Parser α :=
  fun ts => repeatedWithin step ts.length a ts

/-- A step that goes on. -/
def goOn {α : Type} (result : Option (α × List Token)) : Option (Option α × List Token) :=
  result.map fun r => (some r.1, r.2)

/-- A step that finds nothing to do. -/
def stop {α : Type} (ts : List Token) : Option (Option α × List Token) := some (none, ts)

/-- An item of a list, and the comma behind it unless the list ends. -/
def commaItem {α : Type} (item : Parser α) (close : Mark) (items : List α) :
    Parser (Option (List α)) :=
  fun ts =>
    if startsWith close ts then stop ts
    else do
      let (a, rest) ← item ts
      if startsWith close rest then goOn (some (items ++ [a], rest))
      else goOn ((behind .comma rest).map (items ++ [a], ·))

/-- Items with commas between them, and perhaps one behind the last, up to a closing mark. -/
def commaList {α : Type} (item : Parser α) (close : Mark) : Parser (List α) := fun ts => do
  let (items, rest) ← repeated (commaItem item close) [] ts
  let rest ← behind close rest
  some (items, rest)

/-! ## Parentheses -/

/-- Something in any number of parentheses. -/
def parenthesized {α : Type} (inner : Parser α) : Parser α
  | .mark .openParen :: rest => do
    let (a, rest) ← parenthesized inner rest
    let rest ← behind .closeParen rest
    some (a, rest)
  | ts => inner ts

/-! ## Names of types and entities -/

/-- The rest of a path whose words so far are given. A quoted text at its end makes it an entity. -/
def pathRest (words : List String) : Parser (List String × Option (List Char))
  | .mark .path :: .text raw :: rest => some ((words, some raw), rest)
  | .mark .path :: .word w :: rest => if isName w then pathRest (words ++ [w]) rest else none
  | .mark .path :: _ => none
  | ts => some ((words, none), ts)

/-- A path of words, and the quoted text at its end if there is one. -/
def path : Parser (List String × Option (List Char)) := fun ts => do
  let (w, rest) ← name ts
  pathRest [w] rest

end AccessPolicy.Cedar.Source
