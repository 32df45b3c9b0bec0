import AccessPolicy.Proofs.Json.Spelling
import Mathlib.Data.List.DropRight

/-!
# Written documents read back

A reader takes a spelling of a document for the tree of the document. So what was written is read
back, unless it has more levels of arrays and objects than a reader admits.

* `readValue_of_spelled`: a spelling is read as the tree of its document.
* `read_of_spelled`: it is read as the document itself, unless this has too many levels.
* `readBytes_written`: the bytes of what was written are read back.
-/

namespace AccessPolicy.Json

/-! ## Reading a spelling -/

theorem skipBlanks_append {before : List Char} (h : Blanks before) (cs : List Char) :
    skipBlanks (before ++ cs) = skipBlanks cs :=
  List.dropWhile_append_of_pos h

theorem skipBlanks_cons {c : Char} (h : isBlank c = false) (cs : List Char) :
    skipBlanks (c :: cs) = c :: cs := by
  unfold skipBlanks
  rw [List.dropWhile_cons_of_neg]
  simp [h]

theorem skipBlanks_skipBlanks (cs : List Char) : skipBlanks (skipBlanks cs) = skipBlanks cs :=
  List.dropWhile_idempotent isBlank cs

theorem skipBlanks_joined_nil {after : List Char} (h : Blanks after) {c : Char}
    (hc : isBlank c = false) (rest : List Char) :
    skipBlanks (joined [] ++ (after ++ [c]) ++ rest) = c :: rest := by
  rw [joined, List.intercalate_nil, List.nil_append, List.append_assoc, skipBlanks_append h]
  exact skipBlanks_cons hc rest

/-- No number goes on behind blanks and a separator or bracket. -/
theorem delimited_append {after : List Char} (h : Blanks after) {c : Char}
    (hc : c = ',' ∨ c = ']' ∨ c = '}') (rest : List Char) : Delimited (after ++ c :: rest) := by
  intro d hd
  cases after with
  | nil =>
    obtain rfl : c = d := Option.some.inj hd
    rcases hc with rfl | rfl | rfl <;> decide
  | cons b after =>
    obtain rfl : b = d := Option.some.inj hd
    have hb := h b List.mem_cons_self
    simp only [isBlank, Bool.or_eq_true, decide_eq_true_eq] at hb
    rcases hb with ((rfl | rfl) | rfl) | rfl <;> decide

theorem delimited_nil : Delimited [] := by
  intro c hc
  cases hc

/-- A sign or a digit is neither a blank nor another token. -/
theorem isBlank_of_number {c : Char} (h : c = '-' ∨ c.isDigit = true) : isBlank c = false := by
  by_contra hblank
  simp only [Bool.not_eq_false, isBlank, Bool.or_eq_true, decide_eq_true_eq] at hblank
  rcases hblank with ((rfl | rfl) | rfl) | rfl <;> rcases h with h | h <;> cases h

/-- A spelling starts with a character that is neither blank nor closes an array. -/
theorem exists_first {cs : List Char} {j : Json} (h : Spelled cs j) :
    ∃ c tail, cs = c :: tail ∧ isBlank c = false ∧ c ≠ ']' := by
  cases h with
  | @number n _ =>
    obtain ⟨c, tail, hcs, hc⟩ := exists_toString_eq_cons n
    refine ⟨c, tail, hcs, isBlank_of_number hc, ?_⟩
    rintro rfl
    rcases hc with hc | hc <;> cases hc
  | null => exact ⟨_, _, rfl, by decide, by decide⟩
  | true => exact ⟨_, _, rfl, by decide, by decide⟩
  | false => exact ⟨_, _, rfl, by decide, by decide⟩
  | string => exact ⟨_, _, rfl, by decide, by decide⟩
  | array _ _ => exact ⟨_, _, rfl, by decide, by decide⟩
  | object _ _ => exact ⟨_, _, rfl, by decide, by decide⟩

namespace Syntax

theorem readValue_skipBlanks (fuel : Nat) (cs : List Char) :
    readValue fuel (skipBlanks cs) = readValue fuel cs := by
  cases fuel with
  | zero => rfl
  | succ fuel => rw [readValue, readValue, skipBlanks_skipBlanks]

theorem readItems_skipBlanks (fuel : Nat) (cs : List Char) :
    readItems fuel (skipBlanks cs) = readItems fuel cs := by
  cases fuel with
  | zero => rfl
  | succ fuel => rw [readItems, readItems, readValue_skipBlanks]

theorem readFields_skipBlanks (fuel : Nat) (cs : List Char) :
    readFields fuel (skipBlanks cs) = readFields fuel cs := by
  cases fuel with
  | zero => rfl
  | succ fuel => rw [readFields, readFields, skipBlanks_skipBlanks]

theorem readValue_append {before : List Char} (h : Blanks before) (fuel : Nat) (cs : List Char) :
    readValue fuel (before ++ cs) = readValue fuel cs := by
  rw [← readValue_skipBlanks, skipBlanks_append h, readValue_skipBlanks]

theorem readValue_number {n : Int} (h : (Number.int n).IsWord) {rest : List Char}
    (hrest : Delimited rest) (fuel : Nat) :
    readValue (fuel + 1) ((toString n).toList ++ rest) = some (.number (some (.int n)), rest) := by
  have hread := readNumber_written h hrest
  obtain ⟨c, tail, hcs, hc⟩ := exists_toString_eq_cons n
  rw [hcs, List.cons_append] at hread ⊢
  rw [readValue, skipBlanks_cons (isBlank_of_number hc)]
  split
  case h_7 => simp [hread]
  all_goals
    -- no other token starts like a number
    rename_i heq
    rw [(List.cons.inj heq).1] at hc
    rcases hc with hc | hc <;> cases hc

theorem readValue_text (s : String) (rest : List Char) (fuel : Nat) :
    readValue (fuel + 1) ('"' :: (s.toList.flatMap textChar ++ '"' :: rest)) =
      some (.string (some s), rest) := by
  rw [readValue, skipBlanks_cons (by decide)]
  simp [readText_written]

theorem readValue_array (fuel : Nat) (cs : List Char) :
    readValue (fuel + 1) ('[' :: cs) =
      match skipBlanks cs with
      | ']' :: rest => some (.array [], rest)
      | rest => (readItems fuel rest).map fun found => (.array found.1, found.2) := by
  rw [readValue, skipBlanks_cons (by decide)]
  show (match skipBlanks cs with | ']' :: rest => _ | rest => _) = _
  split
  · rfl
  · cases readItems fuel (skipBlanks cs) <;> rfl

theorem readValue_object (fuel : Nat) (cs : List Char) :
    readValue (fuel + 1) ('{' :: cs) =
      match skipBlanks cs with
      | '}' :: rest => some (.object [], rest)
      | rest => (readFields fuel rest).map fun found => (.object found.1, found.2) := by
  rw [readValue, skipBlanks_cons (by decide)]
  show (match skipBlanks cs with | '}' :: rest => _ | rest => _) = _
  split
  · rfl
  · cases readFields fuel (skipBlanks cs) <;> rfl

end Syntax

theorem joined_singleton (part : List Char) : joined [part] = part := by
  simp [joined]

theorem joined_cons {part : List Char} {parts : List (List Char)} (h : parts ≠ []) :
    joined (part :: parts) = part ++ ',' :: joined parts := by
  rw [joined, List.intercalate_cons_of_ne_nil h, List.append_assoc]
  rfl

theorem exists_joined_eq_append (part : List Char) (parts : List (List Char)) :
    ∃ rest, joined (part :: parts) = part ++ rest := by
  by_cases h : parts = []
  · exact ⟨[], by rw [h, joined_singleton, List.append_nil]⟩
  · exact ⟨_, joined_cons h⟩

theorem ne_nil_of_items {parts : List (List Char)} {j : Json} {items : List Json}
    (h : SpelledItems parts (j :: items)) : parts ≠ [] := by
  cases h
  exact List.cons_ne_nil _ _

theorem ne_nil_of_fields {parts : List (List Char)} {f : String × Json}
    {fields : List (String × Json)} (h : SpelledFields parts (f :: fields)) : parts ≠ [] := by
  cases h
  exact List.cons_ne_nil _ _

theorem exists_first_of_items {parts : List (List Char)} {j : Json} {items : List Json}
    (h : SpelledItems parts (j :: items)) (rest : List Char) :
    ∃ c tail, skipBlanks (joined parts ++ rest) = c :: tail ∧ c ≠ ']' := by
  cases h with
  | @cons before cs after _ parts _ hbefore hj _ _ =>
    obtain ⟨others, hjoined⟩ := exists_joined_eq_append (before ++ (cs ++ after)) parts
    obtain ⟨c, tail, hcs, hblank, hc⟩ := exists_first hj
    refine ⟨c, tail ++ (after ++ (others ++ rest)), ?_, hc⟩
    rw [hjoined, List.append_assoc, List.append_assoc, List.append_assoc,
      skipBlanks_append hbefore, hcs, List.cons_append, skipBlanks_cons hblank]

theorem exists_first_of_fields {parts : List (List Char)} {f : String × Json}
    {fields : List (String × Json)} (h : SpelledFields parts (f :: fields)) (rest : List Char) :
    ∃ tail, skipBlanks (joined parts ++ rest) = '"' :: tail := by
  cases h with
  | @cons before behind ahead cs after j parts _ key hbefore _ _ _ _ _ =>
    obtain ⟨others, hjoined⟩ := exists_joined_eq_append
      (before ++ '"' :: (key.toList.flatMap textChar ++ '"' ::
        (behind ++ ':' :: (ahead ++ (cs ++ after))))) parts
    rw [hjoined, List.append_assoc, List.append_assoc, skipBlanks_append hbefore,
      List.cons_append, skipBlanks_cons (by decide)]
    exact ⟨_, rfl⟩

namespace Syntax

section Parts

variable {before cs after rest : List Char} {s : Syntax} {fuel : Nat}

theorem readItems_last (hbefore : Blanks before) (hafter : Blanks after)
    (h : readValue fuel (cs ++ (after ++ ']' :: rest)) = some (s, after ++ ']' :: rest)) :
    readItems (fuel + 1) (before ++ (cs ++ (after ++ ']' :: rest))) = some ([s], rest) := by
  rw [readItems, readValue_append hbefore, h]
  simp [skipBlanks_append hafter, skipBlanks_cons (show isBlank ']' = false by decide)]

theorem readItems_next (hbefore : Blanks before) (hafter : Blanks after)
    (h : readValue fuel (cs ++ (after ++ ',' :: rest)) = some (s, after ++ ',' :: rest))
    {items : List Syntax} {others : List Char}
    (hrest : readItems fuel rest = some (items, others)) :
    readItems (fuel + 1) (before ++ (cs ++ (after ++ ',' :: rest))) =
      some (s :: items, others) := by
  rw [readItems, readValue_append hbefore, h]
  simp [skipBlanks_append hafter, skipBlanks_cons (show isBlank ',' = false by decide), hrest]

variable {behind ahead : List Char} (key : String)

theorem readFields_last (hbefore : Blanks before) (hbehind : Blanks behind) (hahead : Blanks ahead)
    (hafter : Blanks after)
    (h : readValue fuel (cs ++ (after ++ '}' :: rest)) = some (s, after ++ '}' :: rest)) :
    readFields (fuel + 1)
        (before ++ '"' :: (key.toList.flatMap textChar ++ '"' ::
          (behind ++ ':' :: (ahead ++ (cs ++ (after ++ '}' :: rest)))))) =
      some ([(some key, s)], rest) := by
  rw [readFields, skipBlanks_append hbefore, skipBlanks_cons (by decide)]
  simp [readText_written, skipBlanks_append hbehind, readValue_append hahead, h,
    skipBlanks_append hafter, skipBlanks_cons (show isBlank ':' = false by decide),
    skipBlanks_cons (show isBlank '}' = false by decide)]

theorem readFields_next (hbefore : Blanks before) (hbehind : Blanks behind) (hahead : Blanks ahead)
    (hafter : Blanks after)
    (h : readValue fuel (cs ++ (after ++ ',' :: rest)) = some (s, after ++ ',' :: rest))
    {fields : List (Option String × Syntax)} {others : List Char}
    (hrest : readFields fuel rest = some (fields, others)) :
    readFields (fuel + 1)
        (before ++ '"' :: (key.toList.flatMap textChar ++ '"' ::
          (behind ++ ':' :: (ahead ++ (cs ++ (after ++ ',' :: rest)))))) =
      some ((some key, s) :: fields, others) := by
  rw [readFields, skipBlanks_append hbefore, skipBlanks_cons (by decide)]
  simp [readText_written, skipBlanks_append hbehind, readValue_append hahead, h,
    skipBlanks_append hafter, skipBlanks_cons (show isBlank ':' = false by decide),
    skipBlanks_cons (show isBlank ',' = false by decide), hrest]

end Parts

mutual

/-- A spelling is read as the tree of its document. Twice its length bounds the steps. -/
theorem readValue_of_spelled : ∀ (j : Json) {cs rest : List Char} {fuel : Nat}, Spelled cs j →
    Delimited rest → 2 * cs.length ≤ fuel → readValue fuel (cs ++ rest) = some (ofJson j, rest)
  | j, cs, rest, 0, h, _, hfuel => by
    obtain ⟨c, tail, rfl, -⟩ := exists_first h
    simp at hfuel
  | .null, _, rest, fuel + 1, h, _, _ => by
    cases h
    rfl
  | .bool _, _, rest, fuel + 1, h, _, _ => by
    cases h <;> rfl
  | .number _, _, rest, fuel + 1, h, hrest, _ => by
    cases h with
    | number hn => exact readValue_number hn hrest fuel
  | .string s, _, rest, fuel + 1, h, _, _ => by
    cases h with
    | string =>
      rw [List.cons_append, List.append_assoc]
      exact readValue_text s rest fuel
  | .array [], _, rest, fuel + 1, h, _, _ => by
    cases h with
    | @array _ _ after hitems hafter =>
      cases hitems
      have hclosed := skipBlanks_joined_nil hafter (show isBlank ']' = false by decide) rest
      rw [List.cons_append, readValue_array, hclosed]
      rfl
  | .array (j :: items), _, rest, fuel + 1, h, _, hfuel => by
    cases h with
    | @array parts _ after hitems hafter =>
      have hlength : 2 * (joined parts).length < fuel := by
        simp only [List.length_cons, List.length_append] at hfuel
        omega
      have hread : readItems fuel (joined parts ++ (after ++ ']' :: rest)) =
          some (ofItems (j :: items), rest) :=
        readItems_of_spelled (j :: items) hitems (List.cons_ne_nil j items) hafter hlength
      obtain ⟨c, tail, hfirst, hc⟩ := exists_first_of_items hitems (after ++ ']' :: rest)
      rw [← readItems_skipBlanks, hfirst] at hread
      rw [List.cons_append, readValue_array, List.append_assoc, List.append_assoc, List.cons_append,
        List.nil_append, hfirst]
      split
      · rename_i heq
        exact absurd (List.cons.inj heq).1 hc
      · rw [hread]
        rfl
  | .object [], _, rest, fuel + 1, h, _, _ => by
    cases h with
    | @object _ _ after hfields hafter =>
      cases hfields
      have hclosed := skipBlanks_joined_nil hafter (show isBlank '}' = false by decide) rest
      rw [List.cons_append, readValue_object, hclosed]
      rfl
  | .object (f :: fields), _, rest, fuel + 1, h, _, hfuel => by
    cases h with
    | @object parts _ after hfields hafter =>
      have hlength : 2 * (joined parts).length < fuel := by
        simp only [List.length_cons, List.length_append] at hfuel
        omega
      have hread : readFields fuel (joined parts ++ (after ++ '}' :: rest)) =
          some (ofFields (f :: fields), rest) :=
        readFields_of_spelled (f :: fields) hfields (List.cons_ne_nil f fields) hafter hlength
      obtain ⟨tail, hfirst⟩ := exists_first_of_fields hfields (after ++ '}' :: rest)
      rw [← readFields_skipBlanks, hfirst] at hread
      rw [List.cons_append, readValue_object, List.append_assoc, List.append_assoc,
        List.cons_append, List.nil_append, hfirst]
      exact congrArg (Option.map fun found => (Syntax.object found.1, found.2)) hread

theorem readItems_of_spelled : ∀ (items : List Json) {parts : List (List Char)}
    {after rest : List Char} {fuel : Nat}, SpelledItems parts items → items ≠ [] → Blanks after →
    2 * (joined parts).length < fuel →
    readItems fuel (joined parts ++ (after ++ ']' :: rest)) = some (ofItems items, rest)
  | [], _, _, _, _, _, hne, _, _ => absurd rfl hne
  | _ :: _, _, _, _, 0, _, _, _, hfuel => absurd hfuel (Nat.not_lt_zero _)
  | [j], _, after, rest, fuel + 1, h, _, hafter, hfuel => by
    cases h with
    | @cons before cs blanks _ _ _ hbefore hj hblanks hparts =>
      cases hparts
      rw [joined_singleton] at hfuel ⊢
      simp only [List.length_append] at hfuel
      have hend : Blanks (blanks ++ after) := blanks_append hblanks hafter
      have hvalue := readValue_of_spelled j hj
        (delimited_append hend (Or.inr (Or.inl rfl)) rest) (by omega : 2 * cs.length ≤ fuel)
      have hread := readItems_last hbefore hend hvalue
      simp only [List.append_assoc] at hread ⊢
      exact hread
  | j :: j' :: items, _, after, rest, fuel + 1, h, _, hafter, hfuel => by
    cases h with
    | @cons before cs blanks _ parts _ hbefore hj hblanks hparts =>
      rw [joined_cons (ne_nil_of_items hparts)] at hfuel ⊢
      simp only [List.length_append, List.length_cons] at hfuel
      have hvalue := readValue_of_spelled j hj
        (delimited_append hblanks (Or.inl rfl) (joined parts ++ (after ++ ']' :: rest)))
        (by omega : 2 * cs.length ≤ fuel)
      have hlater : readItems fuel (joined parts ++ (after ++ ']' :: rest)) =
          some (ofItems (j' :: items), rest) :=
        readItems_of_spelled (j' :: items) hparts (List.cons_ne_nil j' items) hafter (by omega)
      have hread := readItems_next hbefore hblanks hvalue hlater
      simp only [List.append_assoc, List.cons_append] at hread ⊢
      exact hread

theorem readFields_of_spelled : ∀ (fields : List (String × Json)) {parts : List (List Char)}
    {after rest : List Char} {fuel : Nat}, SpelledFields parts fields → fields ≠ [] →
    Blanks after → 2 * (joined parts).length < fuel →
    readFields fuel (joined parts ++ (after ++ '}' :: rest)) = some (ofFields fields, rest)
  | [], _, _, _, _, _, hne, _, _ => absurd rfl hne
  | _ :: _, _, _, _, 0, _, _, _, hfuel => absurd hfuel (Nat.not_lt_zero _)
  | [(k, j)], _, after, rest, fuel + 1, h, _, hafter, hfuel => by
    cases h with
    | @cons before behind ahead cs blanks _ _ _ _ hbefore hbehind hahead hj hblanks hparts =>
      cases hparts
      rw [joined_singleton] at hfuel ⊢
      simp only [List.length_append, List.length_cons] at hfuel
      have hend : Blanks (blanks ++ after) := blanks_append hblanks hafter
      have hvalue := readValue_of_spelled j hj
        (delimited_append hend (Or.inr (Or.inr rfl)) rest) (by omega : 2 * cs.length ≤ fuel)
      have hread := readFields_last k hbefore hbehind hahead hend hvalue
      simp only [List.append_assoc, List.cons_append] at hread ⊢
      exact hread
  | (k, j) :: f :: fields, _, after, rest, fuel + 1, h, _, hafter, hfuel => by
    cases h with
    | @cons before behind ahead cs blanks _ parts _ _ hbefore hbehind hahead hj hblanks hparts =>
      rw [joined_cons (ne_nil_of_fields hparts)] at hfuel ⊢
      simp only [List.length_append, List.length_cons] at hfuel
      have hvalue := readValue_of_spelled j hj
        (delimited_append hblanks (Or.inl rfl) (joined parts ++ (after ++ '}' :: rest)))
        (by omega : 2 * cs.length ≤ fuel)
      have hlater : readFields fuel (joined parts ++ (after ++ '}' :: rest)) =
          some (ofFields (f :: fields), rest) :=
        readFields_of_spelled (f :: fields) hparts (List.cons_ne_nil f fields) hafter (by omega)
      have hread := readFields_next k hbefore hbehind hahead hblanks hvalue hlater
      simp only [List.append_assoc, List.cons_append] at hread ⊢
      exact hread

end

end Syntax

/-! ## Reading what was written -/

/-- A spelling is read as its document, unless this has too many levels. -/
theorem read_of_spelled {text : String} {j : Json} (h : Spelled text.toList j)
    (hkeys : j.KeysDistinct) : read text = if j.depth ≤ maxDepth then some j else none := by
  have htree : Syntax.readStart text = some (Syntax.ofJson j, []) := by
    have hvalue : Syntax.readValue (2 * text.toList.length + 1) text.toList =
        some (Syntax.ofJson j, []) := by
      have hread := Syntax.readValue_of_spelled j h delimited_nil
        (Nat.le_succ (2 * text.toList.length))
      rw [List.append_nil] at hread
      exact hread
    simp [Syntax.readStart, hvalue, skipBlanks]
  have htext : Syntax.read text = some (Syntax.ofJson j) := by
    simp [Syntax.read, htree]
  rw [read, htext]
  exact Syntax.toJsonWithin_ofJson j maxDepth hkeys

/-- A text as bytes. -/
def utf8 (text : String) : List UInt8 := text.toUTF8.data.toList

theorem utf8?_utf8 (text : String) : utf8? (utf8 text) = some text := by
  have hbytes : (⟨(utf8 text).toArray⟩ : ByteArray) = text.toUTF8 := by
    rw [utf8, Array.toArray_toList]
  rw [utf8?, hbytes, String.fromUTF8?, String.toUTF8_eq_toByteArray, dif_pos text.isValidUTF8]
  rfl

/-- Both ways of writing a document read back as it, unless it has too many levels. -/
theorem readBytes_written {write : Json → String} (hwrite : write ∈ [compact, pretty]) {j : Json}
    (h : j.Plain) :
    readBytes (utf8 (write j)) = if j.depth ≤ maxDepth then some j else none := by
  have hspelled : Spelled (write j).toList j := by
    rcases List.mem_cons.mp hwrite with rfl | hwrite
    · exact spelled_compact j h
    · rw [List.mem_singleton.mp hwrite]
      exact spelled_pretty j h
  rw [readBytes, utf8?_utf8, Option.bind_some]
  exact read_of_spelled hspelled h.keysDistinct

end AccessPolicy.Json
