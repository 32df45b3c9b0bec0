/-!
# Identifiers

Names of attributes, types and annotations in Cedar text are words of letters, digits and
underscores. Types may stand in namespaces, which come before them with `::` between the words.

* `isIdent`, `isPlainIdent`: words, and words that are no key words.
* `isName`: the words that stand as names without quotes.
* `isTypeName`, `baseName`: names of types, and their last word.
-/

namespace AccessPolicy.Cedar

/-- A letter or underscore that an identifier may start with. -/
def isIdentStart (c : Char) : Bool := c = '_' || c.isAlpha

/-- A character that may follow in an identifier. -/
def isIdentRest (c : Char) : Bool := isIdentStart c || c.isDigit

/-- A text of letters, digits and underscores that does not start with a digit. -/
def isIdent (s : String) : Bool :=
  match s.toList with
  | [] => false
  | c :: rest => isIdentStart c && rest.all isIdentRest

/-- Words of the grammar that are no identifiers. -/
def reservedWords : List String :=
  ["true", "false", "if", "then", "else", "in", "is", "like", "has"]

/-- An identifier that is no word of the grammar. -/
def isPlainIdent (s : String) : Bool := isIdent s && !(reservedWords.contains s)

/-- The word that is kept for names of the language itself. -/
def internalWord : String := "__cedar"

/-- An identifier that policies may use as a name. -/
def isName (s : String) : Bool := isPlainIdent s && s ≠ internalWord

/-! ## Paths -/

/-- The parts of a text between double colons. -/
def splitPath : List Char → List (List Char)
  | [] => [[]]
  | ':' :: ':' :: rest => [] :: splitPath rest
  | c :: rest =>
    match splitPath rest with
    | part :: parts => (c :: part) :: parts
    | [] => [[c]]

/-- The words of a path. -/
def pathWords (s : String) : List String := (splitPath s.toList).map String.ofList

/-- A name in namespaces. -/
def isTypeName (s : String) : Bool := (pathWords s).all isName

/-- The last word of a path. -/
def baseName (s : String) : String := (pathWords s).getLast?.getD ""

/-- The path of words. -/
def pathText (words : List String) : String := "::".intercalate words

end AccessPolicy.Cedar
