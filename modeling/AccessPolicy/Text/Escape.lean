import AccessPolicy.Text.Unprintable
import AccessPolicy.Text.DefaultIgnorable
import AccessPolicy.Text.GraphemeExtend

/-!
# Escaped text

Text as it stands between quotes in a message or in policy text: a backslash announces NUL, tab,
line feed, carriage return, a quote or a backslash, and `\u{…}` gives the code point of a character
that could not be seen where it stands: one without a form, one that texts are shown without, or a
combining mark without a character to join. All other characters stand for themselves.

* `escape` is the form between double quotes in policy text. A combining mark is only escaped at the
  start, where it has no character of the text to join.
* `debugQuoted` is the quoted form in messages. It leaves the apostrophe alone and escapes combining
  marks everywhere.
-/

namespace AccessPolicy.Text

/-- The code point of a character in lower-case hexadecimal between braces. -/
def codeEscape (c : Char) : List Char :=
  ['\\', 'u', '{'] ++ Nat.toDigits 16 c.toNat ++ ['}']

/-- One character in escaped form. `quotes` are the quote characters that need a backslash, and
    `marks` tells whether a combining mark is given by its code point. -/
def escapeChar (quotes : List Char) (marks : Bool) (c : Char) : List Char :=
  if c = '\x00' then ['\\', '0']
  else if c = '\t' then ['\\', 't']
  else if c = '\n' then ['\\', 'n']
  else if c = '\r' then ['\\', 'r']
  else if c = '\\' then ['\\', '\\']
  else if c ∈ quotes then ['\\', c]
  else if (marks && isCombining c) || isUnprintable c || isDefaultIgnorable c then codeEscape c
  else [c]

/-- Both quote characters. -/
def bothQuotes : List Char := ['"', '\'']

/-- `escape` on characters: only the first may be a combining mark without a base. -/
def escapeChars : List Char → List Char
  | [] => []
  | c :: cs => escapeChar bothQuotes true c ++ cs.flatMap (escapeChar bothQuotes false)

/-- The form of a text between the double quotes of policy text. -/
def escape (s : String) : String := String.ofList (escapeChars s.toList)

/-- A text in double quotes, escaped. -/
def quoted (s : String) : String := "\"" ++ escape s ++ "\""

/-- A text in double quotes as messages show it. -/
def debugQuoted (s : String) : String :=
  "\"" ++ String.ofList (s.toList.flatMap (escapeChar ['"'] true)) ++ "\""

end AccessPolicy.Text
