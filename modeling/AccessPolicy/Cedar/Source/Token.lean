import AccessPolicy.Cedar.Ident
import AccessPolicy.Text.WhiteSpace

/-!
# Tokens of policy text

A text is words, numbers, quoted texts, slots and marks. Between them stand white space and
comments, which run from `//` to the end of the line. Of two marks that fit, the longer one counts.

* `Token.scan`: the tokens of a text, if it has no other parts.
-/

namespace AccessPolicy.Cedar.Source

/-- The marks of policy text. -/
inductive Mark where
  | at
  | dot
  | comma
  | semicolon
  | colon
  | path
  | openParen
  | closeParen
  | openBrace
  | closeBrace
  | openBracket
  | closeBracket
  | equal
  | notEqual
  | less
  | lessEqual
  | greater
  | greaterEqual
  | or
  | and
  | plus
  | minus
  | times
  | divide
  | remainder
  | not
  | assign
deriving DecidableEq, Repr

/-- A token. Quoted texts are kept as they are written, without their quotes. -/
inductive Token where
  | word (name : String)
  | number (value : Nat)
  | text (raw : List Char)
  | slot (name : String)
  | mark (mark : Mark)
deriving DecidableEq, Repr

/-- The end of a line, where a comment ends. -/
def isLineEnd (c : Char) : Bool := c = '\n' || c = '\r'

/-! ## Tokens -/

/-- The mark of two characters. -/
def longMark? : Char → Char → Option Mark
  | ':', ':' => some .path
  | '=', '=' => some .equal
  | '!', '=' => some .notEqual
  | '<', '=' => some .lessEqual
  | '>', '=' => some .greaterEqual
  | '|', '|' => some .or
  | '&', '&' => some .and
  | _, _ => none

/-- The mark of one character. -/
def shortMark? : Char → Option Mark
  | '@' => some .at
  | '.' => some .dot
  | ',' => some .comma
  | ';' => some .semicolon
  | ':' => some .colon
  | '(' => some .openParen
  | ')' => some .closeParen
  | '{' => some .openBrace
  | '}' => some .closeBrace
  | '[' => some .openBracket
  | ']' => some .closeBracket
  | '<' => some .less
  | '>' => some .greater
  | '+' => some .plus
  | '-' => some .minus
  | '*' => some .times
  | '/' => some .divide
  | '%' => some .remainder
  | '!' => some .not
  | '=' => some .assign
  | _ => none

/-- A mark and what follows it. -/
def readMark (c : Char) (cs : List Char) : Option (Token × List Char) :=
  match cs.head?.bind (longMark? c) with
  | some m => some (.mark m, cs.tail)
  | none => (shortMark? c).map fun m => (.mark m, cs)

/-- A word and what follows it. -/
def readWord (cs : List Char) : String × List Char :=
  (String.ofList (cs.takeWhile isIdentRest), cs.dropWhile isIdentRest)

/-- The number that digits denote. -/
def numberOf (digits : List Char) : Nat :=
  digits.foldl (fun n d => n * 10 + (d.toNat - '0'.toNat)) 0

/-- A quoted text after its opening quote, and what follows it. A backslash takes the next character
    with it, which is no line feed. -/
def readQuoted : List Char → Option (List Char × List Char)
  | [] => none
  | '"' :: rest => some ([], rest)
  | '\\' :: c :: rest =>
    if c = '\n' then none else (readQuoted rest).map fun q => ('\\' :: c :: q.1, q.2)
  | c :: rest => if c = '\\' then none else (readQuoted rest).map fun q => (c :: q.1, q.2)

/-- The token that starts with a character, and what follows it. -/
def readToken (c : Char) (cs : List Char) : Option (Token × List Char) :=
  if isIdentStart c then
    let (name, rest) := readWord (c :: cs)
    some (.word name, rest)
  else if c.isDigit then
    some (.number (numberOf ((c :: cs).takeWhile Char.isDigit)), cs.dropWhile Char.isDigit)
  else if c = '"' then (readQuoted cs).map fun q => (.text q.1, q.2)
  else if c = '?' then
    if (cs.head?.map isIdentStart).getD false then
      let (name, rest) := readWord cs
      some (.slot name, rest)
    else none
  else readMark c cs

/-! ## Texts -/

/-- The tokens of a text. The number bounds the tokens, comments and blanks in it. -/
def scanWithin : Nat → List Char → Option (List Token)
  | _, [] => some []
  | 0, _ => none
  | fuel + 1, '/' :: '/' :: rest => scanWithin fuel (rest.dropWhile fun c => !isLineEnd c)
  | fuel + 1, c :: cs =>
    if Text.isWhiteSpace c then scanWithin fuel cs
    else do
      let (token, rest) ← readToken c cs
      let tokens ← scanWithin fuel rest
      some (token :: tokens)

/-- The tokens of a text. -/
def Token.scan (text : String) : Option (List Token) := scanWithin text.length text.toList

end AccessPolicy.Cedar.Source
