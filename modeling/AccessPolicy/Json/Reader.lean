import AccessPolicy.Json.Syntax

/-!
# Reading documents

The grammar of RFC 8259 on characters: blanks are the space, the tab and the two line ends, and
nothing may follow the document. Every step returns the rest of the text.

* `Syntax.read` is the tree of a text.
* `Json.read` is its document, and `Json.readAs` the document of a text that holds a record.
* `utf8?` decodes bytes.
-/

namespace AccessPolicy.Json

/-- The blanks between tokens. -/
def isBlank (c : Char) : Bool := c = ' ' || c = '\t' || c = '\n' || c = '\r'

/-- A text without the blanks at its start. -/
def skipBlanks (cs : List Char) : List Char := cs.dropWhile isBlank

/-! ## Texts -/

/-- A part of a text in quotes: a character, or sixteen bits given in hexadecimal. -/
inductive TextPart where
  | char (c : Char)
  | unit (bits : Nat)

/-- The value of a hexadecimal digit. -/
def hexValue? (c : Char) : Option Nat :=
  if '0' ≤ c ∧ c ≤ '9' then some (c.toNat - '0'.toNat)
  else if 'a' ≤ c ∧ c ≤ 'f' then some (c.toNat - 'a'.toNat + 10)
  else if 'A' ≤ c ∧ c ≤ 'F' then some (c.toNat - 'A'.toNat + 10)
  else none

/-- The value of four hexadecimal digits. -/
def hex4? (a b c d : Char) : Option Nat := do
  let a ← hexValue? a
  let b ← hexValue? b
  let c ← hexValue? c
  let d ← hexValue? d
  some (((a * 16 + b) * 16 + c) * 16 + d)

/-- The character that a letter after a backslash stands for. -/
def escaped? (c : Char) : Option Char :=
  if c = '"' ∨ c = '\\' ∨ c = '/' then some c
  else if c = 'b' then some '\x08'
  else if c = 'f' then some '\x0c'
  else if c = 'n' then some '\n'
  else if c = 'r' then some '\r'
  else if c = 't' then some '\t'
  else none

/-- The parts of a text up to its closing quote, and what follows. -/
def textParts : List Char → Option (List TextPart × List Char)
  | [] => none
  | '"' :: rest => some ([], rest)
  | '\\' :: 'u' :: a :: b :: c :: d :: rest => do
    let bits ← hex4? a b c d
    let (parts, rest) ← textParts rest
    some (.unit bits :: parts, rest)
  | '\\' :: c :: rest => do
    let c ← escaped? c
    let (parts, rest) ← textParts rest
    some (.char c :: parts, rest)
  | c :: rest =>
    if c = '\\' || c.toNat < 0x20 then none
    else do
      let (parts, rest) ← textParts rest
      some (.char c :: parts, rest)

/-- The first half of a surrogate pair. -/
def isHighSurrogate (bits : Nat) : Bool := 0xD800 ≤ bits && bits < 0xDC00

/-- The second half of a surrogate pair. -/
def isLowSurrogate (bits : Nat) : Bool := 0xDC00 ≤ bits && bits < 0xE000

/-- The characters of a text, if every surrogate has its partner. -/
def joinParts : List TextPart → Option (List Char)
  | [] => some []
  | .char c :: rest => (joinParts rest).map (c :: ·)
  | .unit high :: .unit low :: rest =>
    if isHighSurrogate high then
      if isLowSurrogate low then
        let code := 0x10000 + (high - 0xD800) * 0x400 + (low - 0xDC00)
        (joinParts rest).map (Char.ofNat code :: ·)
      else none
    else if isLowSurrogate high then none
    else (joinParts (.unit low :: rest)).map (Char.ofNat high :: ·)
  | .unit bits :: rest =>
    if isHighSurrogate bits || isLowSurrogate bits then none
    else (joinParts rest).map (Char.ofNat bits :: ·)

/-- A text after its opening quote. The value is missing when a surrogate stands alone. -/
def readText (cs : List Char) : Option (Option String × List Char) := do
  let (parts, rest) ← textParts cs
  some ((joinParts parts).map String.ofList, rest)

/-! ## Numbers -/

/-- The value of a decimal digit. -/
def digitValue (c : Char) : Nat := c.toNat - '0'.toNat

/-- The digits at the start of a text, and the rest. -/
def takeDigits (cs : List Char) : List Nat × List Char :=
  ((cs.takeWhile Char.isDigit).map digitValue, cs.dropWhile Char.isDigit)

/-- The digits before the point: a zero alone, or digits that do not start with one. -/
def readWhole (cs : List Char) : Option (List Nat × List Char) :=
  match takeDigits cs with
  | ([], _) => none
  | (0 :: _ :: _, _) => none
  | found => some found

/-- The point and the digits behind it, if there is a point. -/
def readFraction : List Char → Option (Option (List Nat) × List Char)
  | '.' :: rest =>
    match takeDigits rest with
    | ([], _) => none
    | (digits, rest) => some (some digits, rest)
  | cs => some (none, cs)

/-- The sign at the start of an exponent. -/
def readSign : List Char → Bool × List Char
  | '-' :: rest => (true, rest)
  | '+' :: rest => (false, rest)
  | cs => (false, cs)

/-- The number that digits denote. -/
def ofDigits (digits : List Nat) : Nat := digits.foldl (fun n d => n * 10 + d) 0

/-- An exponent with the letter before it. -/
def readMarkedExponent (cs : List Char) : Option (Option Int × List Char) :=
  let (negative, cs) := readSign cs
  match takeDigits cs with
  | ([], _) => none
  | (digits, rest) =>
    let n : Int := ofDigits digits
    some (some (if negative then -n else n), rest)

/-- The exponent, if there is one. -/
def readExponent : List Char → Option (Option Int × List Char)
  | 'e' :: rest => readMarkedExponent rest
  | 'E' :: rest => readMarkedExponent rest
  | cs => some (none, cs)

/-- A number without its sign. -/
def readUnsigned (negative : Bool) (cs : List Char) : Option (Numeral × List Char) := do
  let (whole, cs) ← readWhole cs
  let (fraction, cs) ← readFraction cs
  let (exponent, cs) ← readExponent cs
  some (⟨negative, whole, fraction, exponent⟩, cs)

/-- A number. -/
def readNumber : List Char → Option (Option Number × List Char)
  | '-' :: rest => (readUnsigned true rest).map fun (n, rest) => (n.value?, rest)
  | cs => (readUnsigned false cs).map fun (n, rest) => (n.value?, rest)

/-! ## Values -/

namespace Syntax

mutual

/-- A value after its blanks. The number bounds the values in the text. -/
def readValue : Nat → List Char → Option (Syntax × List Char)
  | 0, _ => none
  | fuel + 1, cs =>
    match skipBlanks cs with
    | 'n' :: 'u' :: 'l' :: 'l' :: rest => some (.null, rest)
    | 't' :: 'r' :: 'u' :: 'e' :: rest => some (.bool true, rest)
    | 'f' :: 'a' :: 'l' :: 's' :: 'e' :: rest => some (.bool false, rest)
    | '"' :: rest => do
      let (s, rest) ← readText rest
      some (.string s, rest)
    | '[' :: rest =>
      match skipBlanks rest with
      | ']' :: rest => some (.array [], rest)
      | rest => do
        let (items, rest) ← readItems fuel rest
        some (.array items, rest)
    | '{' :: rest =>
      match skipBlanks rest with
      | '}' :: rest => some (.object [], rest)
      | rest => do
        let (fields, rest) ← readFields fuel rest
        some (.object fields, rest)
    | rest => do
      let (n, rest) ← readNumber rest
      some (.number n, rest)

/-- The items of an array up to its closing bracket. -/
def readItems : Nat → List Char → Option (List Syntax × List Char)
  | 0, _ => none
  | fuel + 1, cs => do
    let (item, rest) ← readValue fuel cs
    match skipBlanks rest with
    | ']' :: rest => some ([item], rest)
    | ',' :: rest => do
      let (items, rest) ← readItems fuel rest
      some (item :: items, rest)
    | _ => none

/-- The fields of an object up to its closing brace. -/
def readFields : Nat → List Char → Option (List (Option String × Syntax) × List Char)
  | 0, _ => none
  | fuel + 1, cs =>
    match skipBlanks cs with
    | '"' :: rest => do
      let (key, rest) ← readText rest
      match skipBlanks rest with
      | ':' :: rest => do
        let (value, rest) ← readValue fuel rest
        match skipBlanks rest with
        | '}' :: rest => some ([(key, value)], rest)
        | ',' :: rest => do
          let (fields, rest) ← readFields fuel rest
          some ((key, value) :: fields, rest)
        | _ => none
      | _ => none
    | _ => none

end

/-- The tree at the start of a text, and what follows it and its blanks. -/
def readStart (text : String) : Option (Syntax × List Char) := do
  let cs := text.toList
  let (s, rest) ← readValue (2 * cs.length + 1) cs
  some (s, skipBlanks rest)

/-- The tree of a text. -/
def read (text : String) : Option Syntax := do
  let (s, rest) ← readStart text
  if rest.isEmpty then some s else none

end Syntax

/-- The document at the start of a text, and what follows it and its blanks. -/
def readStart (text : String) : Option (Json × List Char) := do
  let (s, rest) ← Syntax.readStart text
  let j ← s.toJson?
  some (j, rest)

/-- The document of a text. -/
def read (text : String) : Option Json := (Syntax.read text).bind Syntax.toJson?

/-- The document of a text that holds values of a layout. -/
def readAs (layout : Layout) (text : String) : Option Json :=
  (Syntax.read text).bind (Syntax.project? layout)

/-! ## Bytes -/

/-- The text of bytes in UTF-8, if they are well-formed. -/
def utf8? (bytes : List UInt8) : Option String := String.fromUTF8? ⟨bytes.toArray⟩

/-- The document of bytes. -/
def readBytes (bytes : List UInt8) : Option Json := (utf8? bytes).bind read

end AccessPolicy.Json
