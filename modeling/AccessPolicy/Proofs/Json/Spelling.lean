import AccessPolicy.Proofs.Json.Leaf

/-!
# Spellings of documents

A document is spelled by its tokens, with any blanks between them. Both ways of writing spell the
document that they write.

* `Spelled`: the texts of a document.
* `spelled_compact`, `spelled_pretty`: what is written for a document is one of them.
-/

namespace AccessPolicy.Json

/-! ## Spellings -/

/-- Blanks only. -/
def Blanks (cs : List Char) : Prop := ∀ c ∈ cs, isBlank c = true

/-- Parts with commas between them. -/
def joined (parts : List (List Char)) : List Char := [','].intercalate parts

mutual

/-- Characters that stand for a document. -/
inductive Spelled : List Char → Json → Prop
  | null : Spelled ['n', 'u', 'l', 'l'] .null
  | true : Spelled ['t', 'r', 'u', 'e'] (.bool true)
  | false : Spelled ['f', 'a', 'l', 's', 'e'] (.bool false)
  | number {n} : (Number.int n).IsWord → Spelled (toString n).toList (.number (.int n))
  | string {s} : Spelled ('"' :: (s.toList.flatMap textChar ++ ['"'])) (.string s)
  | array {parts items after} : SpelledItems parts items → Blanks after →
    Spelled ('[' :: (joined parts ++ (after ++ [']']))) (.array items)
  | object {parts fields after} : SpelledFields parts fields → Blanks after →
    Spelled ('{' :: (joined parts ++ (after ++ ['}']))) (.object fields)

/-- Parts of a text that stand for the items of an array, each between blanks. -/
inductive SpelledItems : List (List Char) → List Json → Prop
  | nil : SpelledItems [] []
  | cons {before cs after j parts items} : Blanks before → Spelled cs j → Blanks after →
    SpelledItems parts items → SpelledItems ((before ++ (cs ++ after)) :: parts) (j :: items)

/-- Parts of a text that stand for the fields of an object, each between blanks. -/
inductive SpelledFields : List (List Char) → List (String × Json) → Prop
  | nil : SpelledFields [] []
  | cons {before behind ahead cs after j parts fields} (key : String) : Blanks before →
    Blanks behind → Blanks ahead → Spelled cs j → Blanks after → SpelledFields parts fields →
    SpelledFields
      ((before ++ '"' :: (key.toList.flatMap textChar ++ '"' ::
        (behind ++ ':' :: (ahead ++ (cs ++ after))))) :: parts)
      ((key, j) :: fields)

end

/-! ## What is written -/

theorem blanks_nil : Blanks [] := by
  intro c hc
  cases hc

theorem blanks_append {before after : List Char} (hbefore : Blanks before) (hafter : Blanks after) :
    Blanks (before ++ after) :=
  List.forall_mem_append.mpr ⟨hbefore, hafter⟩

theorem blanks_newline (level : Nat) : Blanks (newline level).toList := by
  intro c hc
  unfold newline at hc
  rw [String.toList_ofList, List.mem_cons, List.mem_replicate] at hc
  rcases hc with rfl | ⟨-, rfl⟩ <;> rfl

theorem toList_textLiteral (s : String) :
    (textLiteral s).toList = '"' :: (s.toList.flatMap textChar ++ ['"']) := by
  simp [textLiteral]

theorem toList_bracketed (left right : String) (parts : List String) :
    (bracketed left right parts).toList =
      left.toList ++ (joined (parts.map String.toList) ++ right.toList) := by
  simp [bracketed, joined]

theorem toList_indented (level : Nat) (left right : String) (parts : List String) :
    (indented level left right parts).toList =
      left.toList ++
        (joined (parts.map fun part => (newline (level + 1)).toList ++ part.toList) ++
          ((if parts.isEmpty then [] else (newline level).toList) ++ right.toList)) := by
  have hparts : (parts.map (newline (level + 1) ++ ·)).map String.toList =
      parts.map fun part => (newline (level + 1)).toList ++ part.toList := by
    simp
  cases parts with
  | nil => simp [indented, joined]
  | cons part parts =>
    rw [indented, if_neg (by simp), ← hparts]
    simp only [String.toList_append, String.toList_intercalate, List.append_assoc]
    rfl

mutual

theorem spelled_compact : ∀ j : Json, j.Plain → Spelled (compact j).toList j
  | .null, _ => Spelled.null
  | .bool true, _ => Spelled.true
  | .bool false, _ => Spelled.false
  | .number (.int n), h => by
    cases h with
    | number hn => exact Spelled.number hn
  | .number (.float _), h => by
    cases h with
    | number hn => cases hn
  | .string s, _ => by
    rw [compact, toList_textLiteral]
    exact Spelled.string
  | .array items, h => by
    cases h with
    | array h =>
      rw [compact, toList_bracketed]
      exact Spelled.array (spelledItems_compact items h) blanks_nil
  | .object fields, h => by
    cases h with
    | object _ h =>
      rw [compact, toList_bracketed]
      exact Spelled.object (spelledFields_compact fields h) blanks_nil

theorem spelledItems_compact : ∀ items : List Json, (∀ j ∈ items, j.Plain) →
    SpelledItems ((compactItems items).map String.toList) items
  | [], _ => SpelledItems.nil
  | j :: rest, h => by
    obtain ⟨hj, hrest⟩ := List.forall_mem_cons.mp h
    have hpart := SpelledItems.cons blanks_nil (spelled_compact j hj) blanks_nil
      (spelledItems_compact rest hrest)
    simpa [compactItems] using hpart

theorem spelledFields_compact : ∀ fields : List (String × Json), (∀ f ∈ fields, f.2.Plain) →
    SpelledFields ((compactFields fields).map String.toList) fields
  | [], _ => SpelledFields.nil
  | (k, j) :: rest, h => by
    obtain ⟨hj, hrest⟩ := List.forall_mem_cons.mp h
    have hpart := SpelledFields.cons k blanks_nil blanks_nil blanks_nil
      (spelled_compact j hj) blanks_nil (spelledFields_compact rest hrest)
    simpa [compactFields, toList_textLiteral] using hpart

end

mutual

theorem spelled_prettyAt : ∀ (j : Json) (level : Nat), j.Plain →
    Spelled (prettyAt level j).toList j
  | .null, _, _ => by
    rw [prettyAt]
    exact Spelled.null
  | .bool true, _, _ => by
    rw [prettyAt]
    exact Spelled.true
  | .bool false, _, _ => by
    rw [prettyAt]
    exact Spelled.false
  | .number (.int n), _, h => by
    rw [prettyAt]
    cases h with
    | number hn => exact Spelled.number hn
  | .number (.float _), _, h => by
    cases h with
    | number hn => cases hn
  | .string s, _, _ => by
    rw [prettyAt, toList_textLiteral]
    exact Spelled.string
  | .array items, level, h => by
    cases h with
    | array h =>
      rw [prettyAt, toList_indented]
      refine Spelled.array (spelledItems_pretty items level h) ?_
      split_ifs
      · exact blanks_nil
      · exact blanks_newline level
  | .object fields, level, h => by
    cases h with
    | object _ h =>
      rw [prettyAt, toList_indented]
      refine Spelled.object (spelledFields_pretty fields level h) ?_
      split_ifs
      · exact blanks_nil
      · exact blanks_newline level

theorem spelledItems_pretty : ∀ (items : List Json) (level : Nat), (∀ j ∈ items, j.Plain) →
    SpelledItems
      ((prettyItems (level + 1) items).map fun part => (newline (level + 1)).toList ++ part.toList)
      items
  | [], _, _ => SpelledItems.nil
  | j :: rest, level, h => by
    obtain ⟨hj, hrest⟩ := List.forall_mem_cons.mp h
    have hpart := SpelledItems.cons (blanks_newline (level + 1))
      (spelled_prettyAt j (level + 1) hj) blanks_nil (spelledItems_pretty rest level hrest)
    simpa [prettyItems] using hpart

theorem spelledFields_pretty : ∀ (fields : List (String × Json)) (level : Nat),
    (∀ f ∈ fields, f.2.Plain) →
    SpelledFields
      ((prettyFields (level + 1) fields).map fun part =>
        (newline (level + 1)).toList ++ part.toList)
      fields
  | [], _, _ => SpelledFields.nil
  | (k, j) :: rest, level, h => by
    obtain ⟨hj, hrest⟩ := List.forall_mem_cons.mp h
    have hblank : Blanks [' '] := by simp [Blanks, isBlank]
    have hpart := SpelledFields.cons k (blanks_newline (level + 1)) blanks_nil hblank
      (spelled_prettyAt j (level + 1) hj) blanks_nil (spelledFields_pretty rest level hrest)
    simpa [prettyFields, toList_textLiteral] using hpart

end

theorem spelled_pretty (j : Json) (h : j.Plain) : Spelled (pretty j).toList j :=
  spelled_prettyAt j 0 h

end AccessPolicy.Json
