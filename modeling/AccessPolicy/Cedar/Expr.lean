import AccessPolicy.Cedar.Entity
import AccessPolicy.Cedar.Operator
import AccessPolicy.Fields

/-!
# Expressions

The trees of Cedar conditions. Records list their fields in ascending order of keys, each key once;
`Fields.ofList` puts fields into this form.

* `Expr.isCompound`: which expressions need parentheses as an operand.
* `Literal.sorted`, `Expr.sorted`: every record of a tree is in its form.
-/

namespace AccessPolicy.Cedar

/-! ## Trees -/

/-- A constant. -/
inductive Literal where
  | bool (value : Bool)
  | long (value : Int64)
  | string (value : String)
  | entity (uid : EntityUid)
  | set (items : List Literal)
  | record (fields : List (String × Literal))
  | decimal (text : String)
  | ip (text : String)
deriving Repr, Inhabited

/-- A part of a pattern: text that stands for itself, or a wildcard for any text. -/
inductive PatternElem where
  | literal (text : String)
  | wildcard
deriving DecidableEq, Repr, Inhabited

/-- An expression. -/
inductive Expr where
  | value (literal : Literal)
  | var (name : Var)
  | not (arg : Expr)
  | neg (arg : Expr)
  | binary (op : BinaryOp) (left right : Expr)
  | attr (op : AttrOp) (left : Expr) (name : String)
  | is (left : Expr) (type : String)
  | isIn (left : Expr) (type : String) (entity : Expr)
  | like (left : Expr) (pattern : List PatternElem)
  | ite (cond yes no : Expr)
  | set (items : List Expr)
  | record (fields : List (String × Expr))
  | call (function : ExtensionFn) (args : List Expr)
deriving Repr, Inhabited

/-! ## Equality of literals -/

namespace Literal

mutual

/-- Equality of literals as a test. -/
def eqTest : Literal → Literal → Bool
  | .bool a, .bool b => a = b
  | .long a, .long b => a = b
  | .string a, .string b => a = b
  | .entity a, .entity b => a = b
  | .set a, .set b => eqTestItems a b
  | .record a, .record b => eqTestFields a b
  | .decimal a, .decimal b => a = b
  | .ip a, .ip b => a = b
  | _, _ => false

/-- Equality of lists of literals as a test. -/
def eqTestItems : List Literal → List Literal → Bool
  | [], [] => true
  | a :: as, b :: bs => eqTest a b && eqTestItems as bs
  | _, _ => false

/-- Equality of fields as a test. -/
def eqTestFields : List (String × Literal) → List (String × Literal) → Bool
  | [], [] => true
  | (k, a) :: as, (l, b) :: bs => k = l && eqTest a b && eqTestFields as bs
  | _, _ => false

end

mutual

theorem eqTest_iff : ∀ a b : Literal, eqTest a b = true ↔ a = b
  | .bool a, b => by cases b <;> simp [eqTest]
  | .long a, b => by cases b <;> simp [eqTest]
  | .string a, b => by cases b <;> simp [eqTest]
  | .entity a, b => by cases b <;> simp [eqTest]
  | .set a, b => by
    cases b with
    | set b => simp [eqTest, eqTestItems_iff a b]
    | _ => simp [eqTest]
  | .record a, b => by
    cases b with
    | record b => simp [eqTest, eqTestFields_iff a b]
    | _ => simp [eqTest]
  | .decimal a, b => by cases b <;> simp [eqTest]
  | .ip a, b => by cases b <;> simp [eqTest]

theorem eqTestItems_iff : ∀ as bs : List Literal, eqTestItems as bs = true ↔ as = bs
  | [], bs => by cases bs <;> simp [eqTestItems]
  | a :: as, bs => by
    cases bs with
    | nil => simp [eqTestItems]
    | cons b bs => simp [eqTestItems, eqTest_iff a b, eqTestItems_iff as bs]

theorem eqTestFields_iff :
    ∀ as bs : List (String × Literal), eqTestFields as bs = true ↔ as = bs
  | [], bs => by cases bs <;> simp [eqTestFields]
  | (k, a) :: as, bs => by
    cases bs with
    | nil => simp [eqTestFields]
    | cons b bs =>
      obtain ⟨l, b⟩ := b
      simp [eqTestFields, eqTest_iff a b, eqTestFields_iff as bs, and_assoc]

end

instance : DecidableEq Literal := fun a b => decidable_of_iff _ (eqTest_iff a b)

mutual

/-- Every record of a literal has its keys in order. -/
def sorted : Literal → Bool
  | .set items => sortedItems items
  | .record fields => Fields.ascending (fields.map Prod.fst) && sortedFields fields
  | _ => true

/-- Every record of the items has its keys in order. -/
def sortedItems : List Literal → Bool
  | [] => true
  | l :: rest => sorted l && sortedItems rest

/-- Every record in the values of fields has its keys in order. -/
def sortedFields : List (String × Literal) → Bool
  | [] => true
  | (_, l) :: rest => sorted l && sortedFields rest

end

end Literal

/-! ## Equality of expressions -/

namespace Expr

mutual

/-- Equality of expressions as a test. -/
def eqTest : Expr → Expr → Bool
  | .value a, .value b => a = b
  | .var a, .var b => a = b
  | .not a, .not b => eqTest a b
  | .neg a, .neg b => eqTest a b
  | .binary o a c, .binary p b d => o = p && eqTest a b && eqTest c d
  | .attr o a m, .attr p b n => o = p && eqTest a b && m = n
  | .is a s, .is b t => eqTest a b && s = t
  | .isIn a s c, .isIn b t d => eqTest a b && s = t && eqTest c d
  | .like a p, .like b q => eqTest a b && p = q
  | .ite a c e, .ite b d f => eqTest a b && eqTest c d && eqTest e f
  | .set a, .set b => eqTestItems a b
  | .record a, .record b => eqTestFields a b
  | .call f a, .call g b => f = g && eqTestItems a b
  | _, _ => false

/-- Equality of lists of expressions as a test. -/
def eqTestItems : List Expr → List Expr → Bool
  | [], [] => true
  | a :: as, b :: bs => eqTest a b && eqTestItems as bs
  | _, _ => false

/-- Equality of fields as a test. -/
def eqTestFields : List (String × Expr) → List (String × Expr) → Bool
  | [], [] => true
  | (k, a) :: as, (l, b) :: bs => k = l && eqTest a b && eqTestFields as bs
  | _, _ => false

end

mutual

theorem eqTest_iff : ∀ a b : Expr, eqTest a b = true ↔ a = b
  | .value a, b => by cases b <;> simp [eqTest]
  | .var a, b => by cases b <;> simp [eqTest]
  | .not a, b => by
    cases b with
    | not b => simp [eqTest, eqTest_iff a b]
    | _ => simp [eqTest]
  | .neg a, b => by
    cases b with
    | neg b => simp [eqTest, eqTest_iff a b]
    | _ => simp [eqTest]
  | .binary o a c, b => by
    cases b with
    | binary p b d => simp [eqTest, eqTest_iff a b, eqTest_iff c d, and_assoc]
    | _ => simp [eqTest]
  | .attr o a m, b => by
    cases b with
    | attr p b n => simp [eqTest, eqTest_iff a b, and_assoc]
    | _ => simp [eqTest]
  | .is a s, b => by
    cases b with
    | is b t => simp [eqTest, eqTest_iff a b]
    | _ => simp [eqTest]
  | .isIn a s c, b => by
    cases b with
    | isIn b t d => simp [eqTest, eqTest_iff a b, eqTest_iff c d, and_assoc]
    | _ => simp [eqTest]
  | .like a p, b => by
    cases b with
    | like b q => simp [eqTest, eqTest_iff a b]
    | _ => simp [eqTest]
  | .ite a c e, b => by
    cases b with
    | ite b d f => simp [eqTest, eqTest_iff a b, eqTest_iff c d, eqTest_iff e f, and_assoc]
    | _ => simp [eqTest]
  | .set a, b => by
    cases b with
    | set b => simp [eqTest, eqTestItems_iff a b]
    | _ => simp [eqTest]
  | .record a, b => by
    cases b with
    | record b => simp [eqTest, eqTestFields_iff a b]
    | _ => simp [eqTest]
  | .call f a, b => by
    cases b with
    | call g b => simp [eqTest, eqTestItems_iff a b]
    | _ => simp [eqTest]

theorem eqTestItems_iff : ∀ as bs : List Expr, eqTestItems as bs = true ↔ as = bs
  | [], bs => by cases bs <;> simp [eqTestItems]
  | a :: as, bs => by
    cases bs with
    | nil => simp [eqTestItems]
    | cons b bs => simp [eqTestItems, eqTest_iff a b, eqTestItems_iff as bs]

theorem eqTestFields_iff : ∀ as bs : List (String × Expr), eqTestFields as bs = true ↔ as = bs
  | [], bs => by cases bs <;> simp [eqTestFields]
  | (k, a) :: as, bs => by
    cases bs with
    | nil => simp [eqTestFields]
    | cons b bs =>
      obtain ⟨l, b⟩ := b
      simp [eqTestFields, eqTest_iff a b, eqTestFields_iff as bs, and_assoc]

end

instance : DecidableEq Expr := fun a b => decidable_of_iff _ (eqTest_iff a b)

mutual

/-- Every record of an expression has its keys in order. -/
def sorted : Expr → Bool
  | .value l => l.sorted
  | .var _ => true
  | .not a => sorted a
  | .neg a => sorted a
  | .binary _ a b => sorted a && sorted b
  | .attr _ a _ => sorted a
  | .is a _ => sorted a
  | .isIn a _ b => sorted a && sorted b
  | .like a _ => sorted a
  | .ite a b c => sorted a && sorted b && sorted c
  | .set items => sortedItems items
  | .record fields => Fields.ascending (fields.map Prod.fst) && sortedFields fields
  | .call _ args => sortedItems args

/-- Every record of the items has its keys in order. -/
def sortedItems : List Expr → Bool
  | [] => true
  | e :: rest => sorted e && sortedItems rest

/-- Every record in the values of fields has its keys in order. -/
def sortedFields : List (String × Expr) → Bool
  | [] => true
  | (_, e) :: rest => sorted e && sortedFields rest

end

/-! ## Shorthands -/

/-- A text. -/
def string (s : String) : Expr := .value (.string s)

/-- An integer. -/
def long (n : Int64) : Expr := .value (.long n)

/-- An entity. -/
def entity (e : EntityUid) : Expr := .value (.entity e)

/-- The expression needs parentheses as an operand. -/
def isCompound : Expr → Bool
  | .binary op _ _ => !op.isMethod
  | .attr op _ _ => op = .has
  | .not _ => true
  | .neg _ => true
  | .is _ _ => true
  | .isIn _ _ _ => true
  | .like _ _ => true
  | .ite _ _ _ => true
  | _ => false

end Expr

end AccessPolicy.Cedar
