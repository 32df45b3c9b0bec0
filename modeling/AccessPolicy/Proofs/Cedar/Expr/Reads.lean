import AccessPolicy.Proofs.Cedar.Expr.Reader

/-!
# Texts that are read as conditions

How texts that are read as expressions are put together: one lemma for each form of expression.

* `OperandReads`: operands, with attributes and methods behind them.
* `Reads`: operators, choices, and what stands between brackets.
-/

namespace AccessPolicy.Cedar.ConditionText

open Filter

variable {text text' : List Char} {a b e : Expr}

/-! ## Words and numbers -/

theorem isDigit_of_isIdentStart {c : Char} (h : isIdentStart c = true) : c.isDigit = false := by
  refine Bool.eq_false_of_not_eq_true fun hdigit => ?_
  obtain ⟨-, hhigh⟩ := Bool.and_eq_true_iff.mp hdigit
  have hhigh : c.val.toNat ≤ 57 := UInt32.le_iff_toNat_le.mp (of_decide_eq_true hhigh)
  rcases Bool.or_eq_true_iff.mp h with h | h
  · obtain rfl := of_decide_eq_true h
    revert hhigh
    decide
  · rcases (Bool.or_eq_true_iff.mp h : c.isUpper = true ∨ c.isLower = true) with h | h
    · have hupper : 'A'.val ≤ c.val ∧ c.val ≤ 'Z'.val := of_decide_eq_true h
      have hlow : 65 ≤ c.val.toNat := UInt32.le_iff_toNat_le.mp hupper.1
      omega
    · have hlower : 'a'.val ≤ c.val := of_decide_eq_true (Bool.and_eq_true_iff.mp h).1
      have hlow : 97 ≤ c.val.toNat := UInt32.le_iff_toNat_le.mp hlower
      omega

/-- What starts like a word is read up to where its words end. -/
theorem readPrimary_word {c : Char} (h : isIdentStart c = true) (cs : List Char) (n : Nat) :
    readPrimary (n + 1) (c :: cs) = readNamed n (path (c :: cs)).1 (path (c :: cs)).2 := by
  rw [readPrimary]
  · simp [isDigit_of_isIdentStart h]
  all_goals
    intro rest hrest
    rw [(List.cons.inj hrest).1] at h
    cases h

theorem readPrimary_digit {c : Char} (h : c.isDigit = true) (cs : List Char) (n : Nat) :
    readPrimary (n + 1) (c :: cs) = some (.long (number (c :: cs)).1, (number (c :: cs)).2) := by
  rw [readPrimary]
  · simp [h]
  all_goals
    intro rest hrest
    rw [(List.cons.inj hrest).1] at h
    cases h

/-- Words with `::` between or behind them. -/
structure Words (w : List Char) : Prop where
  start : ∃ c cs, w = c :: cs ∧ isIdentStart c = true
  all : ∀ d ∈ w, isPathChar d = true

theorem words_of_isIdent {w : String} (h : isIdent w) : Words w.toList where
  start :=
    have ⟨c, cs, hcs, hstart, _⟩ := exists_of_isIdent h
    ⟨c, cs, hcs, hstart⟩
  all d hd := by
    obtain ⟨-, -, -, -, hall⟩ := exists_of_isIdent h
    simp [isPathChar, hall d hd]

theorem Words.append {w w' : List Char} (h : Words w) (h' : ∀ d ∈ w', isPathChar d = true) :
    Words (w ++ w') where
  start := by
    obtain ⟨c, cs, rfl, hstart⟩ := h.start
    exact ⟨c, _, rfl, hstart⟩
  all := List.forall_mem_append.mpr ⟨h.all, h'⟩

theorem Words.colons {w : List Char} (h : Words w) : Words (w ++ "::".toList) :=
  h.append (List.all_eq_true.mp (by decide))

/-- What starts with words is read up to where the words end. -/
theorem Words.readPrimary {w cs : List Char} (hw : Words w)
    (hcs : ∀ c ∈ cs.head?, isPathChar c = false) {found : Expr × List Char}
    (h : ∀ᶠ n in atTop, readNamed n w cs = some found) :
    ∀ᶠ n in atTop, readPrimary n (w ++ cs) = some found := by
  have hpath := path_append hw.all hcs
  obtain ⟨c, tail, htail, hstart⟩ := hw.start
  refine eventually_succ ?_
  filter_upwards [h] with n hnamed
  rw [← hnamed]
  rw [htail, List.cons_append] at hpath ⊢
  rw [readPrimary_word hstart, hpath]

/-- A word that stands for a constant or variable. -/
theorem primaryReads_word {w : String} (hw : isIdent w) (hif : w ≠ "if") (h : named? w = some e) :
    PrimaryReads w.toList e := by
  intro rest hrest
  refine (words_of_isIdent hw).readPrimary (fun d hd => (hrest.stops d hd).1) ?_
  refine eventually_succ (.of_forall fun n => ?_)
  rw [readNamed]
  · rw [if_neg (by rw [String.toList_inj]; exact hif), String.ofList_toList, h]
    rfl
  · rintro rest rfl
    exact absurd (hrest '"' rfl) (by decide)
  · rintro rest rfl
    exact absurd (hrest '(' rfl) (by decide)

theorem primaryReads_var (v : Var) : PrimaryReads v.name.toList (.var v) := by
  cases v <;> exact primaryReads_word (by decide) (by decide) rfl

theorem primaryReads_bool (b : Bool) :
    PrimaryReads (Literal.display (.bool b)).toList (.value (.bool b)) := by
  cases b
  · exact primaryReads_word (w := "false") (by decide) (by decide) rfl
  · exact primaryReads_word (w := "true") (by decide) (by decide) rfl

/-! ## Integers -/

theorem primaryReads_nat (n : Nat) : PrimaryReads (Json.digitChars n) (.long (Int64.ofNat n)) := by
  intro rest hrest
  obtain ⟨c, cs, hcs, hdigit⟩ := Json.exists_digitChars_eq_cons n
  have hnumber := number_append n fun c hc => (hrest.stops c hc).2.2
  refine eventually_succ (.of_forall fun k => ?_)
  rw [hcs, List.cons_append] at hnumber ⊢
  rw [readPrimary_digit hdigit, hnumber]

theorem startsPositive_digitChars {n : Nat} (h : 0 < n) (rest : List Char) :
    startsPositive (Json.digitChars n ++ rest) = true := by
  obtain ⟨c, cs, hcs, hdigit⟩ := Json.exists_digitChars_eq_cons n
  obtain ⟨d, ds, hds⟩ := Json.exists_digits_eq_cons h
  have hzero : c ≠ '0' := by
    rintro rfl
    have hdigits : Json.digits n = (Json.digitChars n).map Json.digitValue := rfl
    rw [hdigits, hcs, List.map_cons] at hds
    cases (List.cons.inj hds).1
  simp [startsPositive, hcs, hdigit, hzero]

/-- A minus sign before a positive integer belongs to the integer. -/
theorem primaryReads_negative {n : Nat} (h : 0 < n) :
    PrimaryReads ('-' :: Json.digitChars n) (.long (-Int64.ofNat n)) := by
  intro rest hrest
  have hnumber := number_append n fun c hc => (hrest.stops c hc).2.2
  refine eventually_succ (.of_forall fun k => ?_)
  rw [List.cons_append, readPrimary, if_pos (startsPositive_digitChars h rest), hnumber]

/-! ## Quoted texts and entities -/

theorem primaryReads_string (s : String) :
    PrimaryReads (Text.quoted s).toList (.string s) := by
  intro rest _
  refine eventually_succ (.of_forall fun n => ?_)
  rw [toList_quoted, List.cons_append, List.append_assoc, List.singleton_append, readPrimary,
    quoted_escape]
  rfl

theorem primaryReads_entity {type : String} (htype : Words type.toList) (id : String) :
    PrimaryReads (EntityUid.text ⟨type, id⟩).toList (.entity ⟨type, id⟩) := by
  intro rest _
  have htext : (EntityUid.text ⟨type, id⟩).toList ++ rest =
      (type.toList ++ "::".toList) ++ '"' :: (Text.escapeChars id.toList ++ '"' :: rest) := by
    simp [EntityUid.text, toList_quoted]
  have hdrop : (type.toList ++ "::".toList).dropLast.dropLast = type.toList := by
    have hcolons : type.toList ++ "::".toList = type.toList ++ [':'] ++ [':'] := by simp
    rw [hcolons, List.dropLast_concat, List.dropLast_concat]
  rw [htext]
  refine htype.colons.readPrimary (by simp; decide) (eventually_succ (.of_forall fun n => ?_))
  rw [readNamed, quoted_escape, hdrop, String.ofList_toList]
  rfl

/-! ## Items and fields -/

/-- No expression starts where a bracket closes. -/
theorem readExpr_close {c : Char} (hc : c ∈ [')', ']']) (n : Nat) (cs : List Char) :
    readExpr n (c :: cs) = none := by
  -- The word before the bracket is empty, and an empty word stands for nothing.
  have hnamed : ∀ n, readNamed n [] (c :: cs) = none := by
    intro n
    cases n with
    | zero => rfl
    | succ n =>
      rw [List.mem_pair] at hc
      rcases hc with rfl | rfl <;> rfl
  have hprimary : ∀ n, readPrimary n (c :: cs) = none := by
    intro n
    cases n with
    | zero => rfl
    | succ n =>
      rw [List.mem_pair] at hc
      rcases hc with rfl | rfl <;> exact hnamed n
  match n with
  | 0 => rfl
  | 1 => rfl
  | n + 2 =>
    rw [readExpr, readOperand, hprimary]
    rfl

theorem readItems_last {n : Nat} {cs rest : List Char}
    (hexpr : readExpr n cs = some (e, rest)) (h : ∀ after, rest ≠ ',' :: ' ' :: after) :
    readItems (n + 1) cs = some ([e], rest) := by
  rw [readItems, hexpr]
  split
  · rename_i heq
    cases heq
  · rename_i heq
    cases heq
    exact absurd rfl (h _)
  · rename_i heq
    cases heq
    rfl

theorem readItems_next {n : Nat} {cs rest after : List Char} {items : List Expr}
    (hexpr : readExpr n cs = some (e, ',' :: ' ' :: rest))
    (hitems : readItems n rest = some (items, after)) :
    readItems (n + 1) cs = some (e :: items, after) := by
  rw [readItems, hexpr]
  show (readItems n rest).bind _ = _
  rw [hitems]
  rfl

/-- Items up to a closing bracket. -/
theorem readItems_closed {texts : List (List Char)} {items : List Expr}
    (h : List.Forall₂ Reads texts items) {c : Char} (hc : c ∈ [')', ']']) (rest : List Char) :
    ∀ᶠ n in atTop, readItems n ([',', ' '].intercalate texts ++ c :: rest) =
      some (items, c :: rest) := by
  have hclose : c ≠ ',' ∧ c ∈ [')', ',', ']', '}'] := by
    rw [List.mem_pair] at hc
    rcases hc with rfl | rfl <;> decide
  induction h with
  | nil =>
    refine eventually_succ (.of_forall fun n => ?_)
    rw [List.intercalate_nil, List.nil_append, readItems, readExpr_close hc]
  | @cons text e texts items htext hrest ih =>
    cases hrest with
    | nil =>
      refine eventually_succ ?_
      filter_upwards [htext _ (.close hclose.2)] with n hexpr
      rw [List.intercalate_singleton]
      exact readItems_last hexpr fun after hcomma => hclose.1 (List.cons.inj hcomma).1
    | @cons next _ texts items hnext hrest =>
      -- The comma ends the first item, and the others are read behind it.
      have hcomma := htext (',' :: ' ' :: ([',', ' '].intercalate (next :: texts) ++ c :: rest))
        (.close (by decide))
      refine eventually_succ ?_
      filter_upwards [hcomma, ih] with n hexpr hitems
      rw [List.intercalate_cons_cons, List.append_assoc, List.append_assoc]
      exact readItems_next hexpr hitems

/-- A text that is read as a field. -/
def FieldReads (text : List Char) (f : String × Expr) : Prop :=
  ∃ value, text = (Text.quoted f.1).toList ++ ": ".toList ++ value ∧ Reads value f.2

theorem readFields_last {n : Nat} {k : String} {cs rest : List Char}
    (hexpr : readExpr n cs = some (e, rest)) (h : ∀ after, rest ≠ ',' :: ' ' :: after) :
    readFields (n + 1) ((Text.quoted k).toList ++ ": ".toList ++ cs) = some ([(k, e)], rest) := by
  rw [toList_quoted, List.append_assoc, List.cons_append, List.append_assoc,
    List.singleton_append, readFields, quoted_escape]
  simp only [Option.bind_eq_bind, Option.bind_some, after?_append, hexpr]

theorem readFields_next {n : Nat} {k : String} {cs rest after : List Char}
    {fields : List (String × Expr)} (hexpr : readExpr n cs = some (e, ',' :: ' ' :: rest))
    (hfields : readFields n rest = some (fields, after)) :
    readFields (n + 1) ((Text.quoted k).toList ++ ": ".toList ++ cs) =
      some ((k, e) :: fields, after) := by
  rw [toList_quoted, List.append_assoc, List.cons_append, List.append_assoc,
    List.singleton_append, readFields, quoted_escape]
  simp only [Option.bind_eq_bind, Option.bind_some, after?_append, hexpr, hfields]

/-- Fields up to a closing brace. -/
theorem readFields_closed {texts : List (List Char)} {fields : List (String × Expr)}
    (h : List.Forall₂ FieldReads texts fields) (rest : List Char) :
    ∀ᶠ n in atTop, readFields n ([',', ' '].intercalate texts ++ '}' :: rest) =
      some (fields, '}' :: rest) := by
  induction h with
  | nil => exact eventually_succ (.of_forall fun n => rfl)
  | @cons text f texts fields htext hrest ih =>
    obtain ⟨value, rfl, hvalue⟩ := htext
    cases hrest with
    | nil =>
      refine eventually_succ ?_
      filter_upwards [hvalue ('}' :: rest) (.close (by decide))] with n hexpr
      rw [List.intercalate_singleton, List.append_assoc]
      exact readFields_last hexpr fun after hcomma => by cases hcomma
    | @cons next _ texts items hnext hrest =>
      have hcomma := hvalue (',' :: ' ' :: ([',', ' '].intercalate (next :: texts) ++ '}' :: rest))
        (.close (by decide))
      refine eventually_succ ?_
      filter_upwards [hcomma, ih] with n hexpr hfields
      rw [List.intercalate_cons_cons, List.append_assoc, List.append_assoc, List.append_assoc]
      exact readFields_next hexpr hfields

/-! ## Brackets -/

theorem primaryReads_paren (h : Reads text e) :
    PrimaryReads ("(".toList ++ text ++ ")".toList) e := by
  intro rest _
  have htext : "(".toList ++ text ++ ")".toList ++ rest = '(' :: (text ++ ')' :: rest) := by simp
  rw [htext]
  refine eventually_succ ?_
  filter_upwards [h (')' :: rest) (.close (by decide))] with n hexpr
  rw [readPrimary, hexpr]
  rfl

theorem primaryReads_set {texts : List (List Char)} {items : List Expr}
    (h : List.Forall₂ Reads texts items) :
    PrimaryReads ("[".toList ++ [',', ' '].intercalate texts ++ "]".toList) (.set items) := by
  intro rest _
  have htext : "[".toList ++ [',', ' '].intercalate texts ++ "]".toList ++ rest =
      '[' :: ([',', ' '].intercalate texts ++ ']' :: rest) := by simp
  rw [htext]
  refine eventually_succ ?_
  filter_upwards [readItems_closed (c := ']') h (by decide) rest] with n hitems
  rw [readPrimary, hitems]
  rfl

theorem primaryReads_record {texts : List (List Char)} {fields : List (String × Expr)}
    (h : List.Forall₂ FieldReads texts fields) :
    PrimaryReads ("\x7b".toList ++ [',', ' '].intercalate texts ++ "\x7d".toList)
      (.record fields) := by
  intro rest _
  have htext : "\x7b".toList ++ [',', ' '].intercalate texts ++ "\x7d".toList ++ rest =
      '{' :: ([',', ' '].intercalate texts ++ '}' :: rest) := by simp
  rw [htext]
  refine eventually_succ ?_
  filter_upwards [readFields_closed h rest] with n hfields
  rw [readPrimary, hfields]
  rfl

theorem isIdent_name (f : ExtensionFn) : isIdent f.name := by
  cases f <;> decide

/-- A function with its arguments behind it. -/
theorem primaryReads_call (f : ExtensionFn) {texts : List (List Char)} {args : List Expr}
    (h : List.Forall₂ Reads texts args) :
    PrimaryReads (f.name.toList ++ "(".toList ++ [',', ' '].intercalate texts ++ ")".toList)
      (.call f args) := by
  intro rest _
  have htext : f.name.toList ++ "(".toList ++ [',', ' '].intercalate texts ++ ")".toList ++ rest =
      f.name.toList ++ '(' :: ([',', ' '].intercalate texts ++ ')' :: rest) := by simp
  rw [htext]
  refine (words_of_isIdent (isIdent_name f)).readPrimary (by simp; decide) (eventually_succ ?_)
  filter_upwards [readItems_closed (c := ')') h (by decide) rest] with n hitems
  rw [readNamed, hitems, String.ofList_toList, ExtensionFn.ofName?_name]
  rfl

/-! ## Attributes and methods -/

theorem OperandReads.access {name : String} (h : OperandReads text e) (hname : isIdent name) :
    OperandReads (text ++ ".".toList ++ name.toList) (.attr .access e name) := by
  intro rest found hrest hfound
  have htext : text ++ ".".toList ++ name.toList ++ rest =
      text ++ '.' :: (name.toList ++ rest) := by simp
  have hword := readWord_append hname fun c hc => (hrest.stops c hc).2.1
  rw [htext]
  refine h _ _ (delimited_cons (by decide) _) (eventually_succ ?_)
  filter_upwards [hfound] with n hsuffixes
  rw [readSuffixes, hword]
  split
  · rename_i heq
    obtain rfl := (Prod.mk.inj heq).2
    exact absurd (hrest '(' rfl) (by decide)
  · rename_i heq
    obtain ⟨rfl, rfl⟩ := Prod.mk.inj heq
    exact hsuffixes

theorem OperandReads.index (h : OperandReads text e) (name : String) :
    OperandReads (text ++ "[".toList ++ (Text.quoted name).toList ++ "]".toList)
      (.attr .access e name) := by
  intro rest found hrest hfound
  have htext : text ++ "[".toList ++ (Text.quoted name).toList ++ "]".toList ++ rest =
      text ++ '[' :: '"' :: (Text.escapeChars name.toList ++ '"' :: ']' :: rest) := by
    simp [toList_quoted]
  rw [htext]
  refine h _ _ (delimited_cons (by decide) _) (eventually_succ ?_)
  filter_upwards [hfound] with n hsuffixes
  rw [readSuffixes, quoted_escape]
  exact hsuffixes

/-- A method with its arguments behind it. -/
theorem OperandReads.invoke {name : String} (h : OperandReads text e) (hname : isIdent name)
    {texts : List (List Char)} {args : List Expr} (hargs : List.Forall₂ Reads texts args)
    {called : Expr} (hcalled : method? e name args = some called) :
    OperandReads (text ++ ".".toList ++ name.toList ++ "(".toList ++ [',', ' '].intercalate texts ++
      ")".toList) called := by
  intro rest found hrest hfound
  have htext : text ++ ".".toList ++ name.toList ++ "(".toList ++ [',', ' '].intercalate texts ++
      ")".toList ++ rest =
      text ++ '.' :: (name.toList ++ '(' :: ([',', ' '].intercalate texts ++ ')' :: rest)) := by
    simp
  have hopen : ∀ c ∈ ('(' :: ([',', ' '].intercalate texts ++ ')' :: rest)).head?,
      isIdentRest c = false := by
    intro c hc
    obtain rfl := Option.some.inj hc
    decide
  have hword := readWord_append hname hopen
  rw [htext]
  refine h _ _ (delimited_cons (by decide) _) (eventually_succ ?_)
  have hitems := readItems_closed (c := ')') hargs (by decide) rest
  filter_upwards [hitems, hfound] with n hitems hsuffixes
  rw [readSuffixes, hword]
  show (readItems n _).bind _ = _
  rw [hitems]
  show (method? e name args).bind _ = _
  rw [hcalled]
  exact hsuffixes

theorem method?_binary (op : BinaryOp) (e a : Expr) :
    method? e op.name [a] = some (.binary op e a) := by
  unfold method?
  rw [BinaryOp.ofName?_name]

theorem method?_call (f : ExtensionFn) (e : Expr) (args : List Expr) :
    method? e f.name args = some (.call f (e :: args)) := by
  have hop : BinaryOp.ofName? f.name = none := by
    cases f <;> decide
  unfold method?
  rw [hop, ExtensionFn.ofName?_name]
  rfl

/-! ## Operators -/

theorem reads_not (h : Reads text a) : Reads ("!".toList ++ text) (.not a) := by
  refine reads_of_readPrimary fun rest hrest => eventually_succ ?_
  filter_upwards [h rest hrest] with n hexpr
  rw [List.append_assoc]
  show (readExpr n (text ++ rest)).bind _ = _
  rw [hexpr]
  rfl

theorem reads_neg (h : Reads text a) (hsign : ∀ rest, startsPositive (text ++ rest) = false) :
    Reads ("-".toList ++ text) (.neg a) := by
  refine reads_of_readPrimary fun rest hrest => eventually_succ ?_
  filter_upwards [h rest hrest] with n hexpr
  have htext : "-".toList ++ text ++ rest = '-' :: (text ++ rest) := by simp
  rw [htext, readPrimary, hsign, hexpr]
  rfl

theorem OperandReads.binary {op : BinaryOp} (ha : OperandReads text a) (hb : Reads text' b) :
    Reads (text ++ " ".toList ++ op.name.toList ++ " ".toList ++ text') (.binary op a b) := by
  intro rest hrest
  have htext : text ++ " ".toList ++ op.name.toList ++ " ".toList ++ text' ++ rest =
      text ++ ' ' :: (op.name.toList ++ ' ' :: (text' ++ rest)) := by simp
  have hop : ' ' ∉ op.name.toList ∧ op.name ≠ "has" ∧ op.name ≠ "like" ∧ op.name ≠ "is" := by
    cases op <;> decide
  rw [htext]
  refine ha.tail (eventually_succ ?_)
  filter_upwards [hb rest hrest] with n hexpr
  rw [readTail, joint_append hop.1]
  simp only [hop, if_false, BinaryOp.ofName?_name, hexpr, Option.bind_eq_bind, Option.bind_some]

theorem OperandReads.has (ha : OperandReads text a) (name : String) :
    Reads (text ++ " has ".toList ++ (Expr.nameText isIdent name).toList) (.attr .has a name) := by
  intro rest hrest
  have htext : text ++ " has ".toList ++ (Expr.nameText isIdent name).toList ++ rest =
      text ++ ' ' :: ("has".toList ++ ' ' :: ((Expr.nameText isIdent name).toList ++ rest)) := by
    simp
  have hname := name_append name fun c hc => (hrest.delimited.stops c hc).2.1
  rw [htext]
  refine ha.tail (eventually_succ (.of_forall fun n => ?_))
  rw [readTail, joint_append (by decide)]
  simp only [if_true, hname, Option.bind_eq_bind, Option.bind_some]

theorem OperandReads.like (ha : OperandReads text a) (elems : List PatternElem) :
    Reads (text ++ " like \"".toList ++ elems.flatMap (PatternElem.render .condition) ++
      "\"".toList) (.like a (PatternElem.joined elems)) := by
  intro rest hrest
  have htext : text ++ " like \"".toList ++ elems.flatMap (PatternElem.render .condition) ++
      "\"".toList ++ rest = text ++ ' ' :: ("like".toList ++
        ' ' :: ('"' :: (elems.flatMap (PatternElem.render .condition) ++ '"' :: rest))) := by
    simp
  have hlike : "like" ≠ "has" := by decide
  rw [htext]
  refine ha.tail (eventually_succ (.of_forall fun n => ?_))
  rw [readTail, joint_append (by decide)]
  simp only [hlike, if_false, if_true, pattern_append, Option.bind_eq_bind, Option.bind_some]

theorem Ended.after?_in {rest : List Char} (h : Ended rest) :
    Text.after? " in ".toList rest = none := by
  cases h with
  | nil => rfl
  | @close c cs h =>
    have hblank : ' ' ≠ c := by
      rintro rfl
      revert h
      decide
    simp [Text.after?, hblank]
  | «then» => rfl
  | «else» => rfl

theorem OperandReads.is {type : String} (ha : OperandReads text a) (htype : Words type.toList) :
    Reads (text ++ " is ".toList ++ type.toList) (.is a type) := by
  intro rest hrest
  have htext : text ++ " is ".toList ++ type.toList ++ rest =
      text ++ ' ' :: ("is".toList ++ ' ' :: (type.toList ++ rest)) := by simp
  have hpath := path_append htype.all fun c hc => (hrest.delimited.stops c hc).1
  have his : "is" ≠ "has" ∧ "is" ≠ "like" := by decide
  rw [htext]
  refine ha.tail (eventually_succ (.of_forall fun n => ?_))
  rw [readTail, joint_append (by decide)]
  simp only [his, if_false, if_true, hpath, hrest.after?_in, String.ofList_toList]

theorem OperandReads.isIn {type : String} (ha : OperandReads text a) (htype : Words type.toList)
    (hb : Reads text' b) :
    Reads (text ++ " is ".toList ++ type.toList ++ " in ".toList ++ text') (.isIn a type b) := by
  intro rest hrest
  have htext : text ++ " is ".toList ++ type.toList ++ " in ".toList ++ text' ++ rest =
      text ++ ' ' :: ("is".toList ++
        ' ' :: (type.toList ++ (" in ".toList ++ (text' ++ rest)))) := by simp
  have hin : ∀ c ∈ (" in ".toList ++ (text' ++ rest)).head?, isPathChar c = false := by
    intro c hc
    obtain rfl := Option.some.inj hc
    decide
  have hpath := path_append htype.all hin
  have his : "is" ≠ "has" ∧ "is" ≠ "like" := by decide
  rw [htext]
  refine ha.tail (eventually_succ ?_)
  filter_upwards [hb rest hrest] with n hexpr
  rw [readTail, joint_append (by decide)]
  simp only [his, if_false, if_true, hpath, after?_append, hexpr, String.ofList_toList,
    Option.bind_eq_bind, Option.bind_some]

theorem reads_ite {c : Expr} {text₁ text₂ text₃ : List Char} (hc : Reads text₁ c)
    (ha : Reads text₂ a) (hb : Reads text₃ b) :
    Reads ("if ".toList ++ text₁ ++ " then ".toList ++ text₂ ++ " else ".toList ++ text₃)
      (.ite c a b) := by
  refine reads_of_readPrimary fun rest hrest => ?_
  have hcond := hc (" then ".toList ++ (text₂ ++ (" else ".toList ++ (text₃ ++ rest)))) .then
  have hyes := ha (" else ".toList ++ (text₃ ++ rest)) .else
  have htext :
      "if ".toList ++ text₁ ++ " then ".toList ++ text₂ ++ " else ".toList ++ text₃ ++ rest =
      "if".toList ++ (" ".toList ++ (text₁ ++ (" then ".toList ++ (text₂ ++ (" else ".toList ++
        (text₃ ++ rest)))))) := by simp
  rw [htext]
  refine (words_of_isIdent (w := "if") (by decide)).readPrimary (by simp; decide)
    (eventually_succ ?_)
  filter_upwards [hcond, hyes, hb rest hrest] with n hcond hyes hno
  rw [readNamed]
  · rw [if_pos rfl, after?_append]
    simp only [Option.bind_eq_bind, Option.bind_some, hcond, after?_append, hyes, hno]
  · rintro rest hrest
    cases hrest
  · rintro rest hrest
    cases hrest

end AccessPolicy.Cedar.ConditionText
