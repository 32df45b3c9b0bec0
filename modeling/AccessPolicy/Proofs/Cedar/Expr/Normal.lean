import AccessPolicy.Cedar.Expr.Text

/-!
# Expressions that share a text

Some expressions are told apart by nothing in their text: a constant set, record, decimal or address
and the expression that makes it, a pattern and the pattern with its texts joined, and a negative
integer and the negation of a positive one. A normal form picks one of each.

* `PatternElem.joined`, `Literal.expanded`: the normal forms of patterns and constants.
* `Expr.normalBy`: the normal form of an expression, given the operands that take up a minus sign.
* `Expr.normal`: positive integers take it up. `Expr.spoken`: so do attributes and methods of them.
* `spoken_eq_normal`: the two forms differ only over negations of such attributes and methods.
-/

namespace AccessPolicy.Cedar

/-! ## Patterns -/

namespace PatternElem

/-- Puts a part before a pattern: a text goes on with a text, and no text adds nothing. -/
def joinTo (e : PatternElem) (rest : List PatternElem) : List PatternElem :=
  match e, rest with
  | .wildcard, rest => .wildcard :: rest
  | .literal s, .literal t :: rest => .literal (s ++ t) :: rest
  | .literal s, rest => if s = "" then rest else .literal s :: rest

/-- A part of a pattern with every character as a part of its own. -/
def letters : PatternElem → List PatternElem
  | .wildcard => [.wildcard]
  | .literal s => s.toList.map fun c => .literal (String.ofList [c])

/-- A pattern with neighbouring texts joined and empty ones left out. -/
def joined (pattern : List PatternElem) : List PatternElem := pattern.foldr joinTo []

theorem joinTo_empty (rest : List PatternElem) : joinTo (.literal "") rest = rest := by
  match rest with
  | [] => rfl
  | .wildcard :: rest => rfl
  | .literal t :: rest => simp [joinTo]

theorem joinTo_append (s t : String) (rest : List PatternElem) :
    joinTo (.literal (s ++ t)) rest = joinTo (.literal s) (joinTo (.literal t) rest) := by
  have hfresh : ∀ rest,
      (∀ s, joinTo (.literal s) rest = if s = "" then rest else .literal s :: rest) →
      joinTo (.literal (s ++ t)) rest = joinTo (.literal s) (joinTo (.literal t) rest) := by
    intro rest hrest
    by_cases ht : t = ""
    · rw [ht, joinTo_empty, String.append_empty]
    · rw [hrest, hrest, if_neg ht, if_neg (by simp [ht])]
      rfl
  match rest with
  | [] => exact hfresh [] fun s => rfl
  | .wildcard :: rest => exact hfresh (.wildcard :: rest) fun s => rfl
  | .literal u :: rest => simp [joinTo, String.append_assoc]

/-- A pattern whose texts were taken apart is joined as before. -/
theorem joined_flatMap_letters (pattern : List PatternElem) :
    joined (pattern.flatMap letters) = joined pattern := by
  have htext : ∀ (cs : List Char) (rest : List PatternElem),
      (cs.map fun c => literal (String.ofList [c])).foldr joinTo rest =
        joinTo (.literal (String.ofList cs)) rest := by
    intro cs rest
    induction cs with
    | nil => exact (joinTo_empty rest).symm
    | cons c cs ih =>
      have hsplit : String.ofList (c :: cs) = String.ofList [c] ++ String.ofList cs := by
        rw [← String.ofList_append, List.singleton_append]
      rw [List.map_cons, List.foldr_cons, ih, hsplit, joinTo_append]
  unfold joined
  induction pattern with
  | nil => rfl
  | cons e pattern ih =>
    rw [List.flatMap_cons, List.foldr_append, ih, List.foldr_cons]
    cases e with
    | wildcard => rfl
    | literal s => rw [letters, htext, String.ofList_toList]

end PatternElem

/-- Identifiers with `::` between them. -/
def IsPath (s : String) : Prop :=
  ∃ words, words ≠ [] ∧ (∀ w ∈ words, isIdent w) ∧ s = pathText words

/-! ## Constants -/

namespace Literal

mutual

/-- A constant as an expression: its sets, records, decimals and addresses are made. -/
def expanded : Literal → Expr
  | .bool b => .value (.bool b)
  | .long n => Expr.long n
  | .string s => Expr.string s
  | .entity e => Expr.entity e
  | .set items => .set (expandedItems items)
  | .record fields => .record (expandedFields fields)
  | .decimal s => .call .decimal [Expr.string s]
  | .ip s => .call .ip [Expr.string s]

/-- Constants as expressions. -/
def expandedItems : List Literal → List Expr
  | [] => []
  | l :: rest => expanded l :: expandedItems rest

/-- Fields with constants as fields with expressions. -/
def expandedFields : List (String × Literal) → List (String × Expr)
  | [] => []
  | (k, l) :: rest => (k, expanded l) :: expandedFields rest

end

mutual

/-- The entity types in a constant. -/
def types : Literal → List String
  | .entity e => [e.type]
  | .set items => typesItems items
  | .record fields => typesFields fields
  | _ => []

/-- The entity types in constants. -/
def typesItems : List Literal → List String
  | [] => []
  | l :: rest => types l ++ typesItems rest

/-- The entity types in fields with constants. -/
def typesFields : List (String × Literal) → List String
  | [] => []
  | (_, l) :: rest => types l ++ typesFields rest

end

end Literal

/-! ## Signs -/

namespace Expr

/-- A positive integer. -/
def isPositive : Expr → Bool
  | .value (.long n) => 0 < n
  | _ => false

mutual

/-- A positive integer, or attributes and methods of one behind each other. -/
def isPositiveChain : Expr → Bool
  | .value l => isPositive (.value l)
  | .binary op a _ => op.isMethod && isPositiveChain a
  | .attr op a _ => op = .access && isPositiveChain a
  | .call f args => !f.isConstructor && startsPositiveChain args
  | _ => false

/-- The first item is a positive integer, or attributes and methods of one. -/
def startsPositiveChain : List Expr → Bool
  | [] => false
  | a :: _ => isPositiveChain a

end

mutual

/-- An integer negated, or attributes and methods of the integer negated. -/
def negated : Expr → Expr
  | .value (.long n) => long (-n)
  | .binary op a b => .binary op (negated a) b
  | .attr op a name => .attr op (negated a) name
  | .call f args => .call f (negatedFirst args)
  | e => e

/-- The items with the first one negated. -/
def negatedFirst : List Expr → List Expr
  | [] => []
  | a :: rest => negated a :: rest

end

/-! ## Normal forms -/

mutual

/-- The normal form of an expression. A negation of an operand that takes up the sign becomes the
    operand of the negated integer. -/
def normalBy (takesSign : Expr → Bool) : Expr → Expr
  | .value l => l.expanded
  | .var v => .var v
  | .not a => .not (normalBy takesSign a)
  | .neg a =>
    if takesSign a then negated (normalBy takesSign a) else .neg (normalBy takesSign a)
  | .binary op a b => .binary op (normalBy takesSign a) (normalBy takesSign b)
  | .attr op a name => .attr op (normalBy takesSign a) name
  | .is a type => .is (normalBy takesSign a) type
  | .isIn a type e => .isIn (normalBy takesSign a) type (normalBy takesSign e)
  | .like a pattern => .like (normalBy takesSign a) (PatternElem.joined pattern)
  | .ite c a b => .ite (normalBy takesSign c) (normalBy takesSign a) (normalBy takesSign b)
  | .set items => .set (normalItems takesSign items)
  | .record fields => .record (normalFields takesSign fields)
  | .call f args => .call f (normalItems takesSign args)

/-- The normal forms of items. -/
def normalItems (takesSign : Expr → Bool) : List Expr → List Expr
  | [] => []
  | e :: rest => normalBy takesSign e :: normalItems takesSign rest

/-- The fields with the normal forms of their values. -/
def normalFields (takesSign : Expr → Bool) : List (String × Expr) → List (String × Expr)
  | [] => []
  | (k, e) :: rest => (k, normalBy takesSign e) :: normalFields takesSign rest

end

/-- The normal form in which the negation of a positive integer is a negative one. -/
def normal (e : Expr) : Expr := e.normalBy isPositive

/-- The normal form in which the negation of attributes and methods of a positive integer has these
    of a negative one too. -/
def spoken (e : Expr) : Expr := e.normalBy isPositiveChain

/-! ## Parts of expressions -/

mutual

/-- The entity types in an expression and the types that it tests for. -/
def types : Expr → List String
  | .value l => l.types
  | .var _ => []
  | .not a => types a
  | .neg a => types a
  | .binary _ a b => types a ++ types b
  | .attr _ a _ => types a
  | .is a type => types a ++ [type]
  | .isIn a type e => types a ++ type :: types e
  | .like a _ => types a
  | .ite a b c => types a ++ types b ++ types c
  | .set items => typesItems items
  | .record fields => typesFields fields
  | .call _ args => typesItems args

/-- The types in items. -/
def typesItems : List Expr → List String
  | [] => []
  | e :: rest => types e ++ typesItems rest

/-- The types in the values of fields. -/
def typesFields : List (String × Expr) → List String
  | [] => []
  | (_, e) :: rest => types e ++ typesFields rest

end

mutual

/-- No attribute or method of a positive integer is negated, at any depth. -/
def plainSigns : Expr → Bool
  | .value _ => true
  | .var _ => true
  | .not a => plainSigns a
  | .neg a => (!isPositiveChain a || isPositive a) && plainSigns a
  | .binary _ a b => plainSigns a && plainSigns b
  | .attr _ a _ => plainSigns a
  | .is a _ => plainSigns a
  | .isIn a _ e => plainSigns a && plainSigns e
  | .like a _ => plainSigns a
  | .ite a b c => plainSigns a && plainSigns b && plainSigns c
  | .set items => plainSignsItems items
  | .record fields => plainSignsFields fields
  | .call _ args => plainSignsItems args

/-- No attribute or method of a positive integer is negated in the items. -/
def plainSignsItems : List Expr → Bool
  | [] => true
  | e :: rest => plainSigns e && plainSignsItems rest

/-- No attribute or method of a positive integer is negated in the values of fields. -/
def plainSignsFields : List (String × Expr) → Bool
  | [] => true
  | (_, e) :: rest => plainSigns e && plainSignsFields rest

end

/-! ## The two normal forms -/

theorem isPositiveChain_of_isPositive {e : Expr} (h : e.isPositive) : e.isPositiveChain := by
  cases e with
  | value l => exact h
  | _ => cases h

theorem isPositiveChain_eq_of_plainSigns {a : Expr} (h : (Expr.neg a).plainSigns) :
    a.isPositiveChain = a.isPositive := by
  have hsign := (Bool.and_eq_true_iff.mp h).1
  cases hpositive : a.isPositive with
  | true => exact isPositiveChain_of_isPositive hpositive
  | false => simpa [hpositive] using hsign

mutual

/-- If no attribute or method of a positive integer is negated, the two normal forms agree. -/
theorem spoken_eq_normal : ∀ e : Expr, e.plainSigns →
    e.normalBy isPositiveChain = e.normalBy isPositive
  | .value _, _ => rfl
  | .var _, _ => rfl
  | .not a, h => by simp only [normalBy, spoken_eq_normal a h]
  | .neg a, h => by
    have ha : a.plainSigns := (Bool.and_eq_true_iff.mp h).2
    simp only [normalBy, isPositiveChain_eq_of_plainSigns h, spoken_eq_normal a ha]
  | .binary _ a b, h => by
    obtain ⟨ha, hb⟩ := Bool.and_eq_true_iff.mp h
    simp only [normalBy, spoken_eq_normal a ha, spoken_eq_normal b hb]
  | .attr _ a _, h => by simp only [normalBy, spoken_eq_normal a h]
  | .is a _, h => by simp only [normalBy, spoken_eq_normal a h]
  | .isIn a _ e, h => by
    obtain ⟨ha, he⟩ := Bool.and_eq_true_iff.mp h
    simp only [normalBy, spoken_eq_normal a ha, spoken_eq_normal e he]
  | .like a _, h => by simp only [normalBy, spoken_eq_normal a h]
  | .ite c a b, h => by
    obtain ⟨hca, hb⟩ := Bool.and_eq_true_iff.mp h
    obtain ⟨hc, ha⟩ := Bool.and_eq_true_iff.mp hca
    simp only [normalBy, spoken_eq_normal c hc, spoken_eq_normal a ha, spoken_eq_normal b hb]
  | .set items, h => by simp only [normalBy, spokenItems_eq_normal items h]
  | .record fields, h => by simp only [normalBy, spokenFields_eq_normal fields h]
  | .call _ args, h => by simp only [normalBy, spokenItems_eq_normal args h]

theorem spokenItems_eq_normal : ∀ items : List Expr, plainSignsItems items →
    normalItems isPositiveChain items = normalItems isPositive items
  | [], _ => rfl
  | e :: rest, h => by
    obtain ⟨he, hrest⟩ := Bool.and_eq_true_iff.mp h
    simp only [normalItems, spoken_eq_normal e he, spokenItems_eq_normal rest hrest]

theorem spokenFields_eq_normal : ∀ fields : List (String × Expr), plainSignsFields fields →
    normalFields isPositiveChain fields = normalFields isPositive fields
  | [], _ => rfl
  | (_, e) :: rest, h => by
    obtain ⟨he, hrest⟩ := Bool.and_eq_true_iff.mp h
    simp only [normalFields, spoken_eq_normal e he, spokenFields_eq_normal rest hrest]

end

end Expr

end AccessPolicy.Cedar
