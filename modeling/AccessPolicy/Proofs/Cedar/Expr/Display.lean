import AccessPolicy.Proofs.Cedar.Expr.Reads

/-!
# The text of a condition is read back

The text of an expression is read as its normal form. The induction is on the expression. An operand
may stand behind a minus sign, which goes to the integer at its front if there is one, so that every
operand is read with a sign and without.

* `Literal.operandReads`: what is read of the text of a constant.
* `Expr.readBack`: what is read of the text of an expression.
-/

namespace AccessPolicy.Cedar

open ConditionText

/-! ## Constants -/

theorem toList_commas (parts : List String) :
    (commas parts).toList = [',', ' '].intercalate (parts.map String.toList) :=
  String.toList_intercalate

theorem words_of_isPath {s : String} (h : IsPath s) : Words s.toList := by
  obtain ⟨words, hne, hwords, rfl⟩ := h
  have htext : (pathText words).toList = [':', ':'].intercalate (words.map String.toList) :=
    String.toList_intercalate
  rw [htext]
  clear htext
  induction words with
  | nil => exact absurd rfl hne
  | cons w words ih =>
    obtain ⟨hw, hwords⟩ := List.forall_mem_cons.mp hwords
    have hword := words_of_isIdent hw
    cases words with
    | nil =>
      rw [List.map_singleton, List.intercalate_singleton]
      exact hword
    | cons v words =>
      rw [List.map_cons, List.map_cons, List.intercalate_cons_cons, ← List.map_cons]
      exact hword.colons.append (ih (List.cons_ne_nil v words) hwords).all

namespace Literal

theorem ofNat_natAbs_toInt {n : Int64} (h : 0 ≤ n.toInt) : Int64.ofNat n.toInt.natAbs = n := by
  have habs : (n.toInt.natAbs : Int) = n.toInt := by omega
  rw [← Int64.ofInt_eq_ofNat, habs, Int64.ofInt_toInt]

theorem neg_ofNat_natAbs_toInt {n : Int64} (h : n.toInt ≤ 0) :
    -Int64.ofNat n.toInt.natAbs = n := by
  have habs : -(n.toInt.natAbs : Int) = n.toInt := by omega
  rw [Int64.neg_ofNat, habs, Int64.ofInt_toInt]

/-- An integer is written with its digits, behind a minus sign if it is negative. -/
theorem toList_display_long (n : Int64) :
    (Literal.display (.long n)).toList =
      if n.toInt < 0 then '-' :: Json.digitChars n.toInt.natAbs
      else Json.digitChars n.toInt.natAbs :=
  Json.toList_toString n.toInt

theorem operandReads_long (n : Int64) :
    OperandReads (Literal.display (.long n)).toList (.long n) := by
  rw [toList_display_long]
  split
  · rename_i hn
    have hread := primaryReads_negative (n := n.toInt.natAbs) (by omega)
    rw [neg_ofNat_natAbs_toInt (by omega)] at hread
    exact hread.operandReads
  · rename_i hn
    have hread := primaryReads_nat n.toInt.natAbs
    rw [ofNat_natAbs_toInt (by omega)] at hread
    exact hread.operandReads

mutual

/-- A constant is read as the expression that makes it. -/
theorem operandReads : ∀ l : Literal, (∀ t ∈ l.types, IsPath t) →
    OperandReads l.display.toList l.expanded
  | .bool b, _ => (primaryReads_bool b).operandReads
  | .long n, _ => operandReads_long n
  | .string s, _ => (primaryReads_string s).operandReads
  | .entity e, h =>
    have htype := words_of_isPath (h e.type List.mem_cons_self)
    (primaryReads_entity htype e.id).operandReads
  | .set items, h => by
    have hread := (primaryReads_set (reads_items items h)).operandReads
    rw [← toList_commas, ← String.toList_append, ← String.toList_append] at hread
    exact hread
  | .record fields, h => by
    have hread := (primaryReads_record (reads_fields fields h)).operandReads
    rw [← toList_commas, ← String.toList_append, ← String.toList_append] at hread
    exact hread
  | .decimal s, _ => by
    have hread := primaryReads_call .decimal (.cons (primaryReads_string s).operandReads.reads .nil)
    rw [List.intercalate_singleton, ← String.toList_append, ← String.toList_append,
      ← String.toList_append] at hread
    exact hread.operandReads
  | .ip s, _ => by
    have hread := primaryReads_call .ip (.cons (primaryReads_string s).operandReads.reads .nil)
    rw [List.intercalate_singleton, ← String.toList_append, ← String.toList_append,
      ← String.toList_append] at hread
    exact hread.operandReads

theorem reads_items : ∀ items : List Literal, (∀ t ∈ typesItems items, IsPath t) →
    List.Forall₂ Reads ((renderItems .condition items).map String.toList) (expandedItems items)
  | [], _ => .nil
  | l :: rest, h =>
    have ⟨hl, hrest⟩ := List.forall_mem_append.mp h
    .cons (operandReads l hl).reads (reads_items rest hrest)

theorem reads_fields : ∀ fields : List (String × Literal), (∀ t ∈ typesFields fields, IsPath t) →
    List.Forall₂ FieldReads ((renderFields .condition fields).map String.toList)
      (expandedFields fields)
  | [], _ => .nil
  | (k, l) :: rest, h =>
    have ⟨hl, hrest⟩ := List.forall_mem_append.mp h
    .cons ⟨l.display.toList, by rw [String.toList_append, String.toList_append]; rfl,
      (operandReads l hl).reads⟩ (reads_fields rest hrest)

end

/-- A positive integer is read with a minus sign before it as the negative one. -/
theorem operandReads_negative {n : Int64} (h : 0 < n) :
    OperandReads ("-".toList ++ (Literal.display (.long n)).toList) (.long (-n)) := by
  rw [Int64.lt_iff_toInt_lt, Int64.toInt_zero] at h
  have hread := primaryReads_negative (n := n.toInt.natAbs) (by omega)
  rw [ofNat_natAbs_toInt (by omega)] at hread
  rw [toList_display_long, if_neg (by omega)]
  exact hread.operandReads

theorem startsPositive_display {l : Literal} (htypes : ∀ t ∈ l.types, IsPath t)
    (h : Expr.isPositive (.value l) = false) (rest : List Char) :
    startsPositive (l.display.toList ++ rest) = false := by
  cases l with
  | bool b => cases b <;> rfl
  | long n =>
    rw [toList_display_long]
    split
    · rfl
    -- No sign, and not positive: only zero is left.
    · have hzero : n.toInt = 0 := by
        simp [Expr.isPositive, Int64.lt_iff_toInt_lt] at h
        omega
      rw [hzero]
      rfl
  | string s =>
    rw [display, render, toList_quoted]
    rfl
  | entity e =>
    obtain ⟨c, cs, hcs, hstart⟩ := (words_of_isPath (htypes e.type List.mem_cons_self)).start
    simp [display, render, EntityUid.text, hcs, startsPositive, isDigit_of_isIdentStart hstart]
  | set items => simp [display, render, startsPositive]
  | record fields => simp [display, render, startsPositive]
  | decimal s => simp [display, render, startsPositive]
  | ip s => simp [display, render, startsPositive]

end Literal

/-! ## Operands -/

namespace Expr

theorem isPositiveChain_of_isCompound {e : Expr} (h : e.isCompound) :
    e.isPositiveChain = false := by
  cases e with
  | binary op a b => simp_all [isCompound, isPositiveChain]
  | attr op a name => cases op <;> simp_all [isCompound, isPositiveChain]
  | _ => first | rfl | cases h

/-- The text of an expression as an operand. -/
def operandText (e : Expr) : List Char := (parenthesized e.isCompound e.display).toList

/-- A minus sign, or none. -/
def sign (negative : Bool) : List Char := if negative then "-".toList else []

/-- An expression behind a minus sign, or without. -/
def signed (negative : Bool) (e : Expr) : Expr := if negative then e.negated else e

/-- What is read of the text of an expression: its normal form, and with a minus sign the normal
    form with the integer at its start negated. A sign does not belong to the text otherwise. -/
structure ReadBack (e : Expr) : Prop where
  reads : Reads e.display.toList e.spoken
  operandReads : ∀ negative : Bool, (negative → e.isPositiveChain) →
    OperandReads (sign negative ++ e.operandText) (signed negative e.spoken)
  unsigned : e.isPositiveChain = false → ∀ rest, startsPositive (e.operandText ++ rest) = false

namespace ReadBack

variable {e : Expr}

/-- An operator stands in parentheses as an operand. -/
theorem of_reads (hcompound : e.isCompound) (h : Reads e.display.toList e.spoken) : ReadBack e where
  reads := h
  operandReads negative hnegative := by
    have htext : e.operandText = "(".toList ++ e.display.toList ++ ")".toList := by
      simp [operandText, parenthesized, hcompound]
    cases negative with
    | false =>
      rw [htext]
      exact (primaryReads_paren h).operandReads
    | true =>
      rw [isPositiveChain_of_isCompound hcompound] at hnegative
      cases hnegative rfl
  unsigned _ rest := by
    simp [operandText, parenthesized, hcompound]
    rfl

/-- Anything else stands for itself. -/
theorem of_operandReads (hcompound : e.isCompound = false)
    (h : ∀ negative : Bool, (negative → e.isPositiveChain) →
      OperandReads (sign negative ++ e.display.toList) (signed negative e.spoken))
    (hunsigned : e.isPositiveChain = false →
      ∀ rest, startsPositive (e.display.toList ++ rest) = false) : ReadBack e := by
  have htext : e.operandText = e.display.toList := by
    simp [operandText, parenthesized, hcompound]
  refine ⟨(h false (fun hfalse => by cases hfalse)).reads, ?_, ?_⟩
  · rw [htext]
    exact h
  · rw [htext]
    exact hunsigned

theorem operand (h : ReadBack e) : OperandReads e.operandText e.spoken :=
  h.operandReads false fun hfalse => by cases hfalse

/-- What is no integer does not take up a sign. -/
theorem of_primary (hcompound : e.isCompound = false) (hpositive : e.isPositiveChain = false)
    (h : PrimaryReads e.display.toList e.spoken)
    (hunsigned : ∀ rest, startsPositive (e.display.toList ++ rest) = false) : ReadBack e := by
  refine .of_operandReads hcompound (fun negative hnegative => ?_) fun _ => hunsigned
  cases negative with
  | false => exact h.operandReads
  | true =>
    rw [hpositive] at hnegative
    cases hnegative rfl

/-- An attribute or method leaves the sign to the operand that it stands behind. -/
theorem behind {a : Expr} {suffix : List Char} (wrap : Expr → Expr) (ha : ReadBack a)
    (hcompound : e.isCompound = false) (htext : e.display.toList = a.operandText ++ suffix)
    (hchain : e.isPositiveChain = a.isPositiveChain) (hspoken : e.spoken = wrap a.spoken)
    (hnegated : (wrap a.spoken).negated = wrap a.spoken.negated)
    (h : ∀ text b, OperandReads text b → OperandReads (text ++ suffix) (wrap b)) : ReadBack e := by
  refine .of_operandReads hcompound (fun negative hnegative => ?_) fun hpositive rest => ?_
  · have hsigned : signed negative e.spoken = wrap (signed negative a.spoken) := by
      rw [hspoken]
      cases negative with
      | false => rfl
      | true => exact hnegated
    rw [hchain] at hnegative
    rw [htext, hsigned, ← List.append_assoc]
    exact h _ _ (ha.operandReads negative hnegative)
  · rw [hchain] at hpositive
    rw [htext, List.append_assoc]
    exact ha.unsigned hpositive _

end ReadBack

/-! ## Expressions -/

theorem readBack_value {l : Literal} (h : ∀ t ∈ l.types, IsPath t) : ReadBack (.value l) := by
  refine .of_operandReads rfl (fun negative hnegative => ?_) fun hpositive rest =>
    l.startsPositive_display h hpositive rest
  cases negative with
  | false => exact l.operandReads h
  | true =>
    cases l with
    | long n => exact Literal.operandReads_negative (of_decide_eq_true (hnegative rfl))
    | _ => cases hnegative rfl

theorem readBack_var (v : Var) : ReadBack (.var v) :=
  .of_primary rfl rfl (primaryReads_var v) fun rest => by cases v <;> rfl

section Operators

variable {a b e : Expr}

attribute [local simp] render

theorem readBack_not (ha : ReadBack a) : ReadBack (.not a) := by
  refine .of_reads rfl ?_
  have htext : (Expr.not a).display.toList = "!".toList ++ a.operandText := by
    rw [operandText, ← String.toList_append]
    rfl
  rw [htext]
  exact reads_not ha.operand.reads

theorem readBack_neg (ha : ReadBack a) : ReadBack (.neg a) := by
  refine .of_reads rfl ?_
  have htext : (Expr.neg a).display.toList = "-".toList ++ a.operandText := by
    rw [operandText, ← String.toList_append]
    rfl
  -- The sign of the negation is the sign that the operand takes up, or else it stands alone.
  rw [htext, spoken, normalBy]
  split
  · rename_i hpositive
    exact (ha.operandReads true fun _ => hpositive).reads
  · rename_i hpositive
    exact reads_neg ha.operand.reads (ha.unsigned (Bool.eq_false_iff.mpr hpositive))

theorem readBack_method {op : BinaryOp} (hop : op.isMethod) (ha : ReadBack a) (hb : ReadBack b) :
    ReadBack (.binary op a b) := by
  have htext : (Expr.binary op a b).display.toList = a.operandText ++ (".".toList ++
      (op.name.toList ++ ("(".toList ++ (b.display.toList ++ ")".toList)))) := by
    simp only [operandText, ← String.toList_append, ← String.append_assoc, display, render, hop,
      if_true]
  have hchain : (Expr.binary op a b).isPositiveChain = a.isPositiveChain := by
    simp [isPositiveChain, hop]
  have hname : isIdent op.name := by
    revert hop
    cases op <;> decide
  have hcompound : (Expr.binary op a b).isCompound = false := by
    simp [isCompound, hop]
  refine ha.behind (.binary op · b.spoken) hcompound htext hchain rfl rfl fun text e h => ?_
  have hread := h.invoke hname (.cons hb.reads .nil) (method?_binary op _ _)
  rw [List.intercalate_singleton] at hread
  simpa only [List.append_assoc] using hread

theorem readBack_access (ha : ReadBack a) (name : String) : ReadBack (.attr .access a name) := by
  have hchain : (Expr.attr .access a name).isPositiveChain = a.isPositiveChain := by
    simp [isPositiveChain]
  by_cases hname : isIdent name
  · have htext : (Expr.attr .access a name).display.toList =
        a.operandText ++ (".".toList ++ name.toList) := by
      simp only [operandText, ← String.toList_append, display, render, Style.condition, hname,
        if_true]
    refine ha.behind (.attr .access · name) rfl htext hchain rfl rfl fun text e h => ?_
    rw [← List.append_assoc]
    exact h.access hname
  · have htext : (Expr.attr .access a name).display.toList =
        a.operandText ++ ("[".toList ++ ((Text.quoted name).toList ++ "]".toList)) := by
      simp only [operandText, ← String.toList_append, ← String.append_assoc, display, render,
        Style.condition, hname, Bool.false_eq_true, if_false]
    refine ha.behind (.attr .access · name) rfl htext hchain rfl rfl fun text e h => ?_
    simpa only [List.append_assoc] using h.index name

theorem readBack_operator {op : BinaryOp} (hop : op.isMethod = false) (ha : ReadBack a)
    (hb : ReadBack b) : ReadBack (.binary op a b) := by
  refine .of_reads (by simp [isCompound, hop]) ?_
  have hparens : needsLeftParens .condition op a = a.isCompound := by
    simp [needsLeftParens, Style.condition]
  have htext : (Expr.binary op a b).display.toList =
      a.operandText ++ " ".toList ++ op.name.toList ++ " ".toList ++ b.operandText := by
    simp only [operandText, ← String.toList_append, display, render, hop, hparens,
      Bool.false_eq_true, if_false]
  rw [htext]
  exact ha.operand.binary hb.operand.reads

theorem readBack_has (ha : ReadBack a) (name : String) : ReadBack (.attr .has a name) := by
  refine .of_reads rfl ?_
  have htext : (Expr.attr .has a name).display.toList =
      a.operandText ++ " has ".toList ++ (nameText isIdent name).toList := by
    rw [operandText, ← String.toList_append, ← String.toList_append]
    rfl
  rw [htext]
  exact ha.operand.has name

theorem readBack_is {type : String} (htype : IsPath type) (ha : ReadBack a) :
    ReadBack (.is a type) := by
  refine .of_reads rfl ?_
  have htext : (Expr.is a type).display.toList = a.operandText ++ " is ".toList ++ type.toList := by
    rw [operandText, ← String.toList_append, ← String.toList_append]
    rfl
  rw [htext]
  exact ha.operand.is (words_of_isPath htype)

theorem readBack_isIn {type : String} (htype : IsPath type) (ha : ReadBack a) (hb : ReadBack b) :
    ReadBack (.isIn a type b) := by
  refine .of_reads rfl ?_
  have htext : (Expr.isIn a type b).display.toList =
      a.operandText ++ " is ".toList ++ type.toList ++ " in ".toList ++ b.operandText := by
    simp only [operandText, ← String.toList_append]
    rfl
  rw [htext]
  exact ha.operand.isIn (words_of_isPath htype) hb.operand.reads

theorem readBack_like (ha : ReadBack a) (pattern : List PatternElem) :
    ReadBack (.like a pattern) := by
  refine .of_reads rfl ?_
  have htext : (Expr.like a pattern).display.toList = a.operandText ++ " like \"".toList ++
      pattern.flatMap (PatternElem.render .condition) ++ "\"".toList := by
    simp only [operandText, display, render, String.toList_append, String.toList_ofList]
  rw [htext]
  exact ha.operand.like pattern

theorem readBack_ite {c : Expr} (hc : ReadBack c) (ha : ReadBack a) (hb : ReadBack b) :
    ReadBack (.ite c a b) := by
  refine .of_reads rfl ?_
  have htext : (Expr.ite c a b).display.toList = "if ".toList ++ c.display.toList ++
      " then ".toList ++ a.display.toList ++ " else ".toList ++ b.display.toList := by
    simp only [display, render, String.toList_append]
  rw [htext]
  exact reads_ite hc.reads ha.reads hb.reads

theorem readBack_set {items : List Expr}
    (h : List.Forall₂ Reads ((renderItems .condition items).map String.toList)
      (normalItems isPositiveChain items)) : ReadBack (.set items) := by
  have htext : (Expr.set items).display.toList = "[".toList ++
      [',', ' '].intercalate ((renderItems .condition items).map String.toList) ++ "]".toList := by
    rw [← toList_commas, ← String.toList_append, ← String.toList_append]
    rfl
  refine .of_primary rfl rfl ?_ fun rest => by rw [htext]; rfl
  rw [htext]
  exact primaryReads_set h

theorem readBack_record {fields : List (String × Expr)}
    (h : List.Forall₂ FieldReads ((renderFields .condition fields).map String.toList)
      (normalFields isPositiveChain fields)) : ReadBack (.record fields) := by
  have htext : (Expr.record fields).display.toList = "\x7b".toList ++
      [',', ' '].intercalate ((renderFields .condition fields).map String.toList) ++
        "\x7d".toList := by
    rw [← toList_commas, ← String.toList_append, ← String.toList_append]
    rfl
  refine .of_primary rfl rfl ?_ fun rest => by rw [htext]; rfl
  rw [htext]
  exact primaryReads_record h

/-- A function before its arguments. -/
theorem readBack_construct {f : ExtensionFn} {args : List Expr} (hf : f.isConstructor ∨ args = [])
    (h : List.Forall₂ Reads ((renderItems .condition args).map String.toList)
      (normalItems isPositiveChain args)) : ReadBack (.call f args) := by
  have htext : (Expr.call f args).display.toList = f.name.toList ++ "(".toList ++
      [',', ' '].intercalate ((renderItems .condition args).map String.toList) ++ ")".toList := by
    rw [← toList_commas]
    simp only [← String.toList_append]
    cases args with
    | nil => simp [display, renderItems, commas]
    | cons a args => simp [display, renderItems, hf.resolve_right (List.cons_ne_nil a args)]
  have hpositive : (Expr.call f args).isPositiveChain = false := by
    rcases hf with hf | rfl
    · simp [isPositiveChain, hf]
    · simp [isPositiveChain, startsPositiveChain]
  refine .of_primary rfl hpositive ?_ fun rest => ?_
  · rw [htext]
    exact primaryReads_call f h
  · rw [htext]
    cases f <;> rfl

/-- A function as a method of its first argument. -/
theorem readBack_invoke {f : ExtensionFn} {args : List Expr} (hf : f.isConstructor = false)
    (ha : ReadBack a)
    (h : List.Forall₂ Reads ((renderItems .condition args).map String.toList)
      (normalItems isPositiveChain args)) : ReadBack (.call f (a :: args)) := by
  have htext : (Expr.call f (a :: args)).display.toList = a.operandText ++ (".".toList ++
      (f.name.toList ++ ("(".toList ++
        ([',', ' '].intercalate ((renderItems .condition args).map String.toList) ++
          ")".toList)))) := by
    simp only [operandText, ← toList_commas, ← String.toList_append, ← String.append_assoc, display,
      render, hf, Bool.false_eq_true, if_false]
  have hchain : (Expr.call f (a :: args)).isPositiveChain = a.isPositiveChain := by
    simp [isPositiveChain, startsPositiveChain, hf]
  refine ha.behind (fun e => .call f (e :: normalItems isPositiveChain args)) rfl htext hchain rfl
    rfl fun text e htext => ?_
  simpa only [List.append_assoc] using htext.invoke (isIdent_name f) h (method?_call f _ _)

end Operators

mutual

/-- The text of an expression is read as its normal form. -/
theorem readBack : ∀ e : Expr, (∀ t ∈ e.types, IsPath t) → ReadBack e
  | .value _, h => readBack_value h
  | .var v, _ => readBack_var v
  | .not a, h => readBack_not (readBack a h)
  | .neg a, h => readBack_neg (readBack a h)
  | .binary op a b, h => by
    obtain ⟨ha, hb⟩ := List.forall_mem_append.mp h
    cases hop : op.isMethod with
    | true => exact readBack_method hop (readBack a ha) (readBack b hb)
    | false => exact readBack_operator hop (readBack a ha) (readBack b hb)
  | .attr .access a name, h => readBack_access (readBack a h) name
  | .attr .has a name, h => readBack_has (readBack a h) name
  | .is a type, h =>
    have ⟨ha, htype⟩ := List.forall_mem_append.mp h
    readBack_is (htype type List.mem_cons_self) (readBack a ha)
  | .isIn a type e, h =>
    have ⟨ha, hrest⟩ := List.forall_mem_append.mp h
    have ⟨htype, he⟩ := List.forall_mem_cons.mp hrest
    readBack_isIn htype (readBack a ha) (readBack e he)
  | .like a pattern, h => readBack_like (readBack a h) pattern
  | .ite c a b, h =>
    have ⟨hca, hb⟩ := List.forall_mem_append.mp h
    have ⟨hc, ha⟩ := List.forall_mem_append.mp hca
    readBack_ite (readBack c hc) (readBack a ha) (readBack b hb)
  | .set items, h => readBack_set (reads_items items h)
  | .record fields, h => readBack_record (reads_fields fields h)
  | .call _ [], _ => readBack_construct (.inr rfl) .nil
  | .call f (a :: args), h => by
    obtain ⟨ha, hargs⟩ := List.forall_mem_append.mp h
    cases hf : f.isConstructor with
    | true =>
      exact readBack_construct (.inl hf) (.cons (readBack a ha).reads (reads_items args hargs))
    | false => exact readBack_invoke hf (readBack a ha) (reads_items args hargs)

theorem reads_items : ∀ items : List Expr, (∀ t ∈ typesItems items, IsPath t) →
    List.Forall₂ Reads ((renderItems .condition items).map String.toList)
      (normalItems isPositiveChain items)
  | [], _ => .nil
  | e :: rest, h =>
    have ⟨he, hrest⟩ := List.forall_mem_append.mp h
    .cons (readBack e he).reads (reads_items rest hrest)

theorem reads_fields : ∀ fields : List (String × Expr), (∀ t ∈ typesFields fields, IsPath t) →
    List.Forall₂ FieldReads ((renderFields .condition fields).map String.toList)
      (normalFields isPositiveChain fields)
  | [], _ => .nil
  | (k, e) :: rest, h =>
    have ⟨he, hrest⟩ := List.forall_mem_append.mp h
    .cons ⟨e.display.toList, by rw [String.toList_append, String.toList_append]; rfl,
      (readBack e he).reads⟩ (reads_fields rest hrest)

end

end Expr

end AccessPolicy.Cedar
