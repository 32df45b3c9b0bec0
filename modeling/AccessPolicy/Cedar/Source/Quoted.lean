import AccessPolicy.Cedar.Expr
import AccessPolicy.Json.Reader

/-!
# Quoted texts

What stands between quotes in policy text: a backslash begins an escape, a carriage return may not
stand for itself, all else does. In a pattern a star is a wildcard, and an escaped star is a star.

* `unescape`: the characters of a quoted text, if its escapes are known.
* `patternOf`: the pattern of a quoted text.
-/

namespace AccessPolicy.Cedar.Source

/-- A part of a quoted text: a character, or a star behind a backslash. -/
inductive QuotedPart where
  | char (c : Char)
  | star
deriving DecidableEq, Repr

/-- The character that one letter behind a backslash stands for. -/
def letterEscape? : Char → Option Char
  | 'n' => some '\n'
  | 'r' => some '\r'
  | 't' => some '\t'
  | '0' => some '\x00'
  | '\\' => some '\\'
  | '\'' => some '\''
  | '"' => some '"'
  | _ => none

/-- The character that two hexadecimal digits stand for. -/
def byteEscape? (a b : Char) : Option Char := do
  let high ← Json.hexValue? a
  let low ← Json.hexValue? b
  let code := 16 * high + low
  if code < 0x80 then some (Char.ofNat code) else none

/-- The character of a code point given in one to six digits. -/
def codeEscape? (digits code : Nat) : Option Char :=
  if 0 < digits ∧ digits ≤ 6 ∧ code.isValidChar then some (Char.ofNat code) else none

mutual

/-- The parts of a quoted text, if its escapes are known. -/
def parts : List Char → Option (List QuotedPart)
  | [] => some []
  | '\\' :: '*' :: rest => (parts rest).map (.star :: ·)
  | '\\' :: 'x' :: a :: b :: rest => do
    let c ← byteEscape? a b
    let ps ← parts rest
    some (.char c :: ps)
  | '\\' :: 'u' :: '{' :: rest => codeParts 0 0 rest
  | '\\' :: c :: rest => do
    let c ← letterEscape? c
    let ps ← parts rest
    some (.char c :: ps)
  | c :: rest => if c = '\\' ∨ c = '\r' then none else (parts rest).map (.char c :: ·)

/-- The parts of a quoted text within a code point, after a number of digits. Underscores may stand
    between and behind digits. -/
def codeParts (digits code : Nat) : List Char → Option (List QuotedPart)
  | [] => none
  | '}' :: rest => do
    let c ← codeEscape? digits code
    let ps ← parts rest
    some (.char c :: ps)
  | c :: rest =>
    if c = '_' then if digits = 0 then none else codeParts digits code rest
    else do
      let d ← Json.hexValue? c
      codeParts (digits + 1) (16 * code + d) rest

end

/-- The character of a part outside patterns, where stars are not escaped. -/
def QuotedPart.char? : QuotedPart → Option Char
  | .char c => some c
  | .star => none

/-- The part of a pattern of a part of its text. -/
def QuotedPart.patternElem : QuotedPart → PatternElem
  | .char c => if c = '*' then .wildcard else .literal (String.ofList [c])
  | .star => .literal "*"

/-- The text that a quoted text stands for. -/
def unescape (raw : List Char) : Option String := do
  let ps ← parts raw
  let cs ← ps.mapM QuotedPart.char?
  some (String.ofList cs)

/-- The pattern that a quoted text stands for. -/
def patternOf (raw : List Char) : Option (List PatternElem) :=
  (parts raw).map fun ps => ps.map QuotedPart.patternElem

end AccessPolicy.Cedar.Source
