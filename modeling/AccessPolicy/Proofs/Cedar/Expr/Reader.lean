import AccessPolicy.Proofs.Cedar.Expr.Normal
import AccessPolicy.Proofs.Cedar.Source.Quoted
import AccessPolicy.Proofs.Json.Leaf
import AccessPolicy.Text.Beginning
import Mathlib.Order.Filter.AtTopBot.Basic

/-!
# Reading the text of conditions

A reader for the text of an expression. It is no parser of the language: it takes no other spelling
than that of `Expr.display`, and a minus sign before a positive integer belongs to the integer.

* `readExpr`: an expression, up to something that ends one. Its number bounds the steps.
* `Reads`, `OperandReads`: a text that is read as an expression, on its own or as an operand.
-/

namespace AccessPolicy.Cedar.ConditionText

open Filter

/-- What a text begins with, and what follows it. -/
abbrev Reader (α : Type) := List Char → Option (α × List Char)

/-! ## Words, numbers and quoted texts -/

/-- A character of a word, or of words with `::` between them. -/
def isPathChar (c : Char) : Bool := isIdentRest c || c = ':'

/-- Words with `::` between or behind them. -/
def path (cs : List Char) : List Char × List Char :=
  (cs.takeWhile isPathChar, cs.dropWhile isPathChar)

/-- A natural number. -/
def number (cs : List Char) : Int64 × List Char :=
  (Int64.ofNat (Nat.ofDigitChars 10 (cs.takeWhile Char.isDigit) 0), cs.dropWhile Char.isDigit)

/-- A positive number comes next. -/
def startsPositive (cs : List Char) : Bool := cs.head?.any fun c => c.isDigit && c ≠ '0'

/-- A text behind its opening quote. -/
def quoted : Reader String := fun cs => do
  let (raw, cs) ← Source.readQuoted cs
  let s ← Source.unescape raw
  some (s, cs)

/-- A pattern. -/
def pattern : Reader (List PatternElem) := fun cs => do
  let cs ← Text.after? ['"'] cs
  let (raw, cs) ← Source.readQuoted cs
  let elems ← Source.patternOf raw
  some (PatternElem.joined elems, cs)

/-- The name of an attribute, perhaps in quotes. -/
def name : Reader String
  | '"' :: cs => quoted cs
  | cs => some (Source.readWord cs)

/-- A word between blanks. -/
def joint : Reader String := fun cs => do
  let cs ← Text.after? [' '] cs
  let rest ← Text.after? [' '] (cs.dropWhile (· ≠ ' '))
  some (String.ofList (cs.takeWhile (· ≠ ' ')), rest)

/-! ## Expressions -/

/-- The constant or variable of a word. -/
def named? (w : String) : Option Expr :=
  if w = "true" then some (.value (.bool true))
  else if w = "false" then some (.value (.bool false))
  else (Var.ofName? w).map .var

/-- The application of a method. -/
def method? (e : Expr) (w : String) (args : List Expr) : Option Expr :=
  match BinaryOp.ofName? w, args with
  | some op, [a] => some (.binary op e a)
  | _, args => (ExtensionFn.ofName? w).map fun f => .call f (e :: args)

mutual

/-- An expression. -/
def readExpr : Nat → Reader Expr
  | 0, _ => none
  | n + 1, cs => do
    let (e, cs) ← readOperand n cs
    readTail n e cs

/-- An operand, with attributes and methods behind it. -/
def readOperand : Nat → Reader Expr
  | 0, _ => none
  | n + 1, cs => do
    let (e, cs) ← readPrimary n cs
    readSuffixes n e cs

/-- An operand without what stands behind it, or an operator with its operand. -/
def readPrimary : Nat → Reader Expr
  | 0, _ => none
  | n + 1, '(' :: cs => do
    let (e, cs) ← readExpr n cs
    let cs ← Text.after? [')'] cs
    some (e, cs)
  | n + 1, '[' :: cs => do
    let (items, cs) ← readItems n cs
    let cs ← Text.after? [']'] cs
    some (.set items, cs)
  | n + 1, '{' :: cs => do
    let (fields, cs) ← readFields n cs
    let cs ← Text.after? ['}'] cs
    some (.record fields, cs)
  | n + 1, '!' :: cs => do
    let (a, cs) ← readExpr n cs
    some (.not a, cs)
  | n + 1, '-' :: cs =>
    -- The integer is read with its sign here, before the attributes and methods behind it.
    if startsPositive cs then some (.long (-(number cs).1), (number cs).2)
    else do
      let (a, cs) ← readExpr n cs
      some (.neg a, cs)
  | _ + 1, '"' :: cs => do
    let (s, cs) ← quoted cs
    some (.string s, cs)
  | n + 1, cs =>
    if cs.head?.any Char.isDigit then some (.long (number cs).1, (number cs).2)
    else readNamed n (path cs).1 (path cs).2

/-- What begins with words: an entity, a call, a choice, or what a single word stands for. -/
def readNamed : Nat → List Char → Reader Expr
  | 0, _, _ => none
  | _ + 1, w, '"' :: cs => do
    let (id, cs) ← quoted cs
    some (.entity ⟨String.ofList w.dropLast.dropLast, id⟩, cs)
  | n + 1, w, '(' :: cs => do
    let (args, cs) ← readItems n cs
    let cs ← Text.after? [')'] cs
    let f ← ExtensionFn.ofName? (String.ofList w)
    some (.call f args, cs)
  | n + 1, w, cs =>
    if w = "if".toList then do
      let cs ← Text.after? " ".toList cs
      let (c, cs) ← readExpr n cs
      let cs ← Text.after? " then ".toList cs
      let (a, cs) ← readExpr n cs
      let cs ← Text.after? " else ".toList cs
      let (b, cs) ← readExpr n cs
      some (.ite c a b, cs)
    else do
      let e ← named? (String.ofList w)
      some (e, cs)

/-- Attributes and methods behind an operand. -/
def readSuffixes : Nat → Expr → Reader Expr
  | 0, _, _ => none
  | n + 1, e, '.' :: cs =>
    match Source.readWord cs with
    | (w, '(' :: cs) => do
      let (args, cs) ← readItems n cs
      let cs ← Text.after? [')'] cs
      let e ← method? e w args
      readSuffixes n e cs
    | (w, cs) => readSuffixes n (.attr .access e w) cs
  | n + 1, e, '[' :: '"' :: cs => do
    let (s, cs) ← quoted cs
    let cs ← Text.after? [']'] cs
    readSuffixes n (.attr .access e s) cs
  | _ + 1, e, cs => some (e, cs)

/-- An operator behind an operand, if there is one. -/
def readTail : Nat → Expr → Reader Expr
  | 0, _, _ => none
  | n + 1, e, cs =>
    match joint cs with
    | none => some (e, cs)
    | some (w, rest) =>
      -- Other words between blanks, such as `then`, belong to what the expression stands in.
      if w = "has" then do
        let (s, rest) ← name rest
        some (.attr .has e s, rest)
      else if w = "like" then do
        let (elems, rest) ← pattern rest
        some (.like e elems, rest)
      else if w = "is" then
        match Text.after? " in ".toList (path rest).2 with
        | none => some (.is e (String.ofList (path rest).1), (path rest).2)
        | some after => do
          let (place, after) ← readExpr n after
          some (.isIn e (String.ofList (path rest).1) place, after)
      else match BinaryOp.ofName? w with
        | none => some (e, cs)
        | some op => do
          let (b, rest) ← readExpr n rest
          some (.binary op e b, rest)

/-- Expressions with commas between them, if there are any. -/
def readItems : Nat → Reader (List Expr)
  | 0, _ => none
  | n + 1, cs =>
    match readExpr n cs with
    -- Nothing is left to read before the closing bracket.
    | none => some ([], cs)
    | some (e, ',' :: ' ' :: cs) => do
      let (items, cs) ← readItems n cs
      some (e :: items, cs)
    | some (e, cs) => some ([e], cs)

/-- Fields with commas between them, if there are any. -/
def readFields : Nat → Reader (List (String × Expr))
  | n + 1, '"' :: cs => do
    let (k, cs) ← quoted cs
    let cs ← Text.after? ": ".toList cs
    match ← readExpr n cs with
    | (e, ',' :: ' ' :: cs) => do
      let (fields, cs) ← readFields n cs
      some ((k, e) :: fields, cs)
    | (e, cs) => some ([(k, e)], cs)
  | _, cs => some ([], cs)

end

/-! ## What follows an expression -/

/-- A text that follows an expression. -/
inductive Ended : List Char → Prop
  | nil : Ended []
  | close {c cs} : c ∈ [')', ',', ']', '}'] → Ended (c :: cs)
  | then {cs} : Ended (" then ".toList ++ cs)
  | else {cs} : Ended (" else ".toList ++ cs)

/-- A text that follows an operand. -/
def Delimited (cs : List Char) : Prop := ∀ c ∈ cs.head?, c ∈ [' ', '.', '[', ')', ',', ']', '}']

theorem Ended.delimited {cs : List Char} (h : Ended cs) : Delimited cs := by
  intro c hc
  cases h with
  | nil => cases hc
  | close h =>
    obtain rfl := Option.some.inj hc
    exact List.mem_append_right [' ', '.', '['] h
  | _ =>
    obtain rfl := Option.some.inj hc
    decide

theorem delimited_cons {c : Char} (h : c ∈ [' ', '.', '[', ')', ',', ']', '}']) (cs : List Char) :
    Delimited (c :: cs) := by
  intro d hd
  obtain rfl := Option.some.inj hd
  exact h

/-- No word, path or number goes on. -/
theorem Delimited.stops {cs : List Char} (h : Delimited cs) :
    ∀ c ∈ cs.head?, isPathChar c = false ∧ isIdentRest c = false ∧ c.isDigit = false := by
  have hall : [' ', '.', '[', ')', ',', ']', '}'].all fun c =>
      !isPathChar c && (!isIdentRest c && !c.isDigit) := by decide
  intro c hc
  simpa using List.all_eq_true.mp hall c (h c hc)

/-! ## Words, numbers and quoted texts that are read -/

theorem after?_append (bs cs : List Char) : Text.after? bs (bs ++ cs) = some cs :=
  Text.after?_eq_some_iff.mpr rfl

/-- A run of characters ends where the next one is not of the kind. -/
theorem run_append {p : Char → Bool} {w rest : List Char} (hw : ∀ c ∈ w, p c = true)
    (hrest : ∀ c ∈ rest.head?, p c = false) :
    (w ++ rest).takeWhile p = w ∧ (w ++ rest).dropWhile p = rest := by
  have hstop : rest.takeWhile p = [] ∧ rest.dropWhile p = rest := by
    cases rest with
    | nil => exact ⟨rfl, rfl⟩
    | cons c rest =>
      have hc := hrest c rfl
      simp [hc]
  rw [List.takeWhile_append_of_pos hw, List.dropWhile_append_of_pos hw, hstop.1, hstop.2,
    List.append_nil]
  exact ⟨rfl, rfl⟩

theorem path_append {w rest : List Char} (hw : ∀ c ∈ w, isPathChar c = true)
    (hrest : ∀ c ∈ rest.head?, isPathChar c = false) : path (w ++ rest) = (w, rest) := by
  obtain ⟨htake, hdrop⟩ := run_append hw hrest
  rw [path, htake, hdrop]

theorem number_append (n : Nat) {rest : List Char} (hrest : ∀ c ∈ rest.head?, c.isDigit = false) :
    number (Json.digitChars n ++ rest) = (Int64.ofNat n, rest) := by
  obtain ⟨htake, hdrop⟩ := run_append (fun c => Json.isDigit_of_mem_digitChars) hrest
  rw [number, htake, hdrop, Json.digitChars, Nat.ofDigitChars_ten_toDigits]

theorem quoted_escape (s : String) (rest : List Char) :
    quoted (Text.escapeChars s.toList ++ '"' :: rest) = some (s, rest) := by
  rw [quoted, Source.readQuoted_escapeChars]
  simp [Source.unescape_escapeChars]

theorem toList_quoted (s : String) :
    (Text.quoted s).toList = '"' :: (Text.escapeChars s.toList ++ ['"']) := by
  simp [Text.quoted, Text.escape]

theorem pattern_append (elems : List PatternElem) (rest : List Char) :
    pattern ('"' :: (elems.flatMap (PatternElem.render .condition) ++ '"' :: rest)) =
      some (PatternElem.joined elems, rest) := by
  have hopen := after?_append ['"'] (elems.flatMap (PatternElem.render .condition) ++ '"' :: rest)
  rw [List.singleton_append] at hopen
  rw [pattern, hopen]
  simp [Source.readQuoted_flatMap_render, Source.patternOf_flatMap_render,
    PatternElem.joined_flatMap_letters]

theorem exists_of_isIdent {w : String} (h : isIdent w) :
    ∃ c cs, w.toList = c :: cs ∧ isIdentStart c = true ∧ ∀ d ∈ w.toList, isIdentRest d = true := by
  unfold isIdent at h
  split at h
  · cases h
  · rename_i c cs hcs
    obtain ⟨hc, hrest⟩ := Bool.and_eq_true_iff.mp h
    refine ⟨c, cs, hcs, hc, ?_⟩
    rw [hcs, List.forall_mem_cons]
    exact ⟨by simp [isIdentRest, hc], List.all_eq_true.mp hrest⟩

theorem readWord_append {w : String} (hw : isIdent w) {rest : List Char}
    (hrest : ∀ c ∈ rest.head?, isIdentRest c = false) :
    Source.readWord (w.toList ++ rest) = (w, rest) := by
  obtain ⟨-, -, -, -, hall⟩ := exists_of_isIdent hw
  obtain ⟨htake, hdrop⟩ := run_append hall hrest
  rw [Source.readWord, htake, hdrop, String.ofList_toList]

theorem name_append (w : String) {rest : List Char}
    (hrest : ∀ c ∈ rest.head?, isIdentRest c = false) :
    name ((Expr.nameText isIdent w).toList ++ rest) = some (w, rest) := by
  by_cases hw : isIdent w
  · rw [Expr.nameText, if_pos hw, name, readWord_append hw hrest]
    intro tail htail
    obtain ⟨c, cs, hcs, hstart, -⟩ := exists_of_isIdent hw
    rw [hcs, List.cons_append] at htail
    rw [(List.cons.inj htail).1] at hstart
    cases hstart
  · rw [Expr.nameText, if_neg hw, toList_quoted, List.cons_append, name, List.append_assoc]
    exact quoted_escape w rest

theorem joint_append {w : String} (hw : ' ' ∉ w.toList) (rest : List Char) :
    joint (' ' :: (w.toList ++ ' ' :: rest)) = some (w, rest) := by
  have hword : ∀ c ∈ w.toList, decide (c ≠ ' ') = true := by
    intro c hc
    rw [decide_eq_true_iff]
    rintro rfl
    exact hw hc
  have hblank : ∀ c ∈ (' ' :: rest).head?, decide (c ≠ ' ') = false := by simp
  obtain ⟨htake, hdrop⟩ := run_append hword hblank
  have hfirst := after?_append [' '] (w.toList ++ ' ' :: rest)
  have hlast := after?_append [' '] rest
  rw [List.singleton_append] at hfirst hlast
  simp only [joint, hfirst, Option.bind_eq_bind, Option.bind_some, htake, hdrop, hlast,
    String.ofList_toList]

/-! ## Operands that end -/

theorem readSuffixes_stop {cs : List Char} (h : ∀ c ∈ cs.head?, c ≠ '.' ∧ c ≠ '[') (n : Nat)
    (e : Expr) : readSuffixes (n + 1) e cs = some (e, cs) := by
  rw [readSuffixes]
  · rintro rest rfl
    exact (h '.' rfl).1 rfl
  · rintro rest rfl
    exact (h '[' rfl).2 rfl

theorem readSuffixes_ended {cs : List Char} (h : Ended cs) (n : Nat) (e : Expr) :
    readSuffixes (n + 1) e cs = some (e, cs) := by
  refine readSuffixes_stop (fun c hc => ?_) n e
  cases h with
  | nil => cases hc
  | close h =>
    obtain rfl := Option.some.inj hc
    constructor <;> rintro rfl <;> revert h <;> decide
  | _ =>
    obtain rfl := Option.some.inj hc
    decide

theorem readTail_ended {cs : List Char} (h : Ended cs) (n : Nat) (e : Expr) :
    readTail (n + 1) e cs = some (e, cs) := by
  rw [readTail]
  cases h with
  | nil => rfl
  | @close c cs h =>
    have hblank : c ≠ ' ' := by
      rintro rfl
      revert h
      decide
    simp [joint, Text.after?, Ne.symm hblank]
  | @«then» cs =>
    have hjoint := joint_append (w := "then") (by decide) cs
    have htext : " then ".toList ++ cs = ' ' :: ("then".toList ++ ' ' :: cs) := rfl
    rw [htext, hjoint]
    rfl
  | @«else» cs =>
    have hjoint := joint_append (w := "else") (by decide) cs
    have htext : " else ".toList ++ cs = ' ' :: ("else".toList ++ ' ' :: cs) := rfl
    rw [htext, hjoint]
    rfl

/-! ## Texts that are read -/

theorem eventually_succ {p : Nat → Prop} (h : ∀ᶠ n in atTop, p (n + 1)) : ∀ᶠ n in atTop, p n := by
  rw [← map_add_atTop_eq_nat 1, eventually_map]
  exact h

/-- With enough steps, a text is read as an expression wherever an expression ends. -/
def Reads (text : List Char) (e : Expr) : Prop :=
  ∀ rest, Ended rest → ∀ᶠ n in atTop, readExpr n (text ++ rest) = some (e, rest)

/-- With enough steps, a text is read as an operand, and then what stands behind it. -/
def OperandReads (text : List Char) (e : Expr) : Prop :=
  ∀ rest found, Delimited rest → (∀ᶠ n in atTop, readSuffixes n e rest = some found) →
    ∀ᶠ n in atTop, readOperand n (text ++ rest) = some found

/-- With enough steps, a text is read as an operand without what stands behind it. -/
def PrimaryReads (text : List Char) (e : Expr) : Prop :=
  ∀ rest, Delimited rest → ∀ᶠ n in atTop, readPrimary n (text ++ rest) = some (e, rest)

theorem PrimaryReads.operandReads {text : List Char} {e : Expr} (h : PrimaryReads text e) :
    OperandReads text e := by
  intro rest found hrest hfound
  refine eventually_succ ?_
  filter_upwards [h rest hrest, hfound] with n hprimary hsuffixes
  rw [readOperand, hprimary]
  exact hsuffixes

/-- An operand is an expression if nothing follows. -/
theorem readExpr_ended {cs rest : List Char} {e : Expr} (hrest : Ended rest)
    (h : ∀ᶠ n in atTop, readOperand n cs = some (e, rest)) :
    ∀ᶠ n in atTop, readExpr n cs = some (e, rest) := by
  have htail : ∀ᶠ n in atTop, readTail n e rest = some (e, rest) :=
    eventually_succ (.of_forall fun n => readTail_ended hrest n e)
  refine eventually_succ ?_
  filter_upwards [h, htail] with n hoperand htail
  rw [readExpr, hoperand]
  exact htail

theorem OperandReads.reads {text : List Char} {e : Expr} (h : OperandReads text e) :
    Reads text e := by
  intro rest hrest
  refine readExpr_ended hrest (h rest _ hrest.delimited ?_)
  exact eventually_succ (.of_forall fun n => readSuffixes_ended hrest n e)

/-- Nothing but an expression's end may stand behind an operator with its operand. -/
theorem reads_of_readPrimary {text : List Char} {e : Expr}
    (h : ∀ rest, Ended rest → ∀ᶠ n in atTop, readPrimary n (text ++ rest) = some (e, rest)) :
    Reads text e := by
  intro rest hrest
  have hsuffixes : ∀ᶠ n in atTop, readSuffixes n e rest = some (e, rest) :=
    eventually_succ (.of_forall fun n => readSuffixes_ended hrest n e)
  refine readExpr_ended hrest (eventually_succ ?_)
  filter_upwards [h rest hrest, hsuffixes] with n hprimary hsuffixes
  rw [readOperand, hprimary]
  exact hsuffixes

/-- An operand with an operator behind it. -/
theorem OperandReads.tail {text cs : List Char} {e : Expr} (h : OperandReads text e)
    {found : Expr × List Char} (htail : ∀ᶠ n in atTop, readTail n e (' ' :: cs) = some found) :
    ∀ᶠ n in atTop, readExpr n (text ++ ' ' :: cs) = some found := by
  have hsuffixes : ∀ᶠ n in atTop, readSuffixes n e (' ' :: cs) = some (e, ' ' :: cs) := by
    refine eventually_succ (.of_forall fun n => readSuffixes_stop ?_ n e)
    intro c hc
    obtain rfl := Option.some.inj hc
    decide
  refine eventually_succ ?_
  filter_upwards [h _ _ (delimited_cons (by decide) cs) hsuffixes, htail] with n hoperand htail
  rw [readExpr, hoperand]
  exact htail

end AccessPolicy.Cedar.ConditionText
