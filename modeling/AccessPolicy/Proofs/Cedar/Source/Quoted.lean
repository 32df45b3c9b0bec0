import AccessPolicy.Cedar.Source.Quoted
import AccessPolicy.Cedar.Source.Token
import AccessPolicy.Proofs.Cedar.Expr.Normal
import Mathlib.Data.List.Basic
import Mathlib.Tactic.SplitIfs

/-!
# Quoted texts read back

A text that was escaped ends at its closing quote and stands for itself when it is read again. In
the text of a pattern, stars that are no wildcards are escaped besides.

* `Spells`: characters between quotes that stand for parts of a quoted text.
* `spells_escapeChar`: an escaped character stands for the character.
* `unescape_escapeChars`, `patternOf_flatMap_render`: texts and patterns.
-/

namespace AccessPolicy.Cedar.Source

attribute [local simp] readQuoted parts

/-- Characters that do not end a quoted text and stand for parts of it, whatever follows. -/
structure Spells (w : List Char) (ps : List QuotedPart) : Prop where
  readQuoted : ∀ rest, readQuoted (w ++ rest) = (readQuoted rest).map fun q => (w ++ q.1, q.2)
  parts : ∀ rest, parts (w ++ rest) = (parts rest).map (ps ++ ·)

namespace Spells

theorem nil : Spells [] [] where
  readQuoted rest := by simp
  parts rest := by simp

theorem append {w w' : List Char} {ps ps' : List QuotedPart} (h : Spells w ps)
    (h' : Spells w' ps') : Spells (w ++ w') (ps ++ ps') where
  readQuoted rest := by
    rw [List.append_assoc, h.readQuoted, h'.readQuoted, Option.map_map]
    congr 1
    funext q
    simp
  parts rest := by
    rw [List.append_assoc, h.parts, h'.parts, Option.map_map]
    congr 1
    funext qs
    simp

theorem flatMap {α : Type} {f : α → List Char} {g : α → List QuotedPart} (xs : List α)
    (h : ∀ x ∈ xs, Spells (f x) (g x)) : Spells (xs.flatMap f) (xs.flatMap g) := by
  induction xs with
  | nil => exact nil
  | cons x xs ih =>
    rw [List.forall_mem_cons] at h
    exact h.1.append (ih h.2)

/-- A character that stands for itself. -/
theorem char {c : Char} (hquote : c ≠ '"') (hescape : c ≠ '\\') (hreturn : c ≠ '\r') :
    Spells [c] [.char c] where
  readQuoted rest := by simp [hescape]
  parts rest := by simp [hescape, hreturn]

/-- A character behind a backslash. -/
theorem letter {e c : Char} (h : letterEscape? e = some c) : Spells ['\\', e] [.char c] where
  readQuoted rest := by
    have hline : e ≠ '\n' := by
      rintro rfl
      cases h
    simp [hline]
  parts rest := by
    have hletters : e ≠ '*' ∧ e ≠ 'x' ∧ e ≠ 'u' := by
      refine ⟨?_, ?_, ?_⟩ <;> rintro rfl <;> cases h
    obtain ⟨hstar, hx, hu⟩ := hletters
    rw [List.cons_append, List.cons_append, List.nil_append, Source.parts, h, Option.map_eq_bind]
    · rfl
    · exact hstar
    · exact fun _ _ _ e _ => hx e
    · exact fun _ e _ => hu e

/-- A star behind a backslash. -/
theorem star : Spells ['\\', '*'] [.star] where
  readQuoted rest := by simp
  parts rest := by simp

end Spells

/-! ## Code points -/

theorem hexValue?_digitChar {d : Nat} (h : d < 16) :
    Json.hexValue? (Nat.digitChar d) = some d ∧ Nat.digitChar d ≠ '"' ∧ Nat.digitChar d ≠ '\\' ∧
      Nat.digitChar d ≠ '}' ∧ Nat.digitChar d ≠ '_' ∧ Nat.digitChar d ≠ '*' := by
  revert d
  decide

theorem exists_of_mem_toDigits {n : Nat} {c : Char} (h : c ∈ Nat.toDigits 16 n) :
    ∃ d < 16, c = Nat.digitChar d := by
  induction n using Nat.strongRecOn with
  | _ n ih =>
    rcases Nat.lt_or_ge n 16 with hn | hn
    · rw [Nat.toDigits_of_lt_base hn, List.mem_singleton] at h
      exact ⟨n, hn, h⟩
    · rw [Nat.toDigits_of_base_le (by decide) hn, List.mem_append, List.mem_singleton] at h
      rcases h with h | h
      · exact ih (n / 16) (by omega) h
      · exact ⟨n % 16, Nat.mod_lt n (by decide), h⟩

/-- The digits of a code point are taken up one after the other. -/
theorem codeParts_toDigits (n digits : Nat) (rest : List Char) :
    codeParts digits 0 (Nat.toDigits 16 n ++ rest) =
      codeParts (digits + (Nat.toDigits 16 n).length) n rest := by
  induction n using Nat.strongRecOn generalizing rest with
  | _ n ih =>
    have hstep : ∀ digits code d, d < 16 → codeParts digits code (Nat.digitChar d :: rest) =
        codeParts (digits + 1) (16 * code + d) rest := by
      intro digits code d hd
      obtain ⟨hvalue, -, -, hclose, hscore, -⟩ := hexValue?_digitChar hd
      rw [codeParts]
      · rw [if_neg hscore, hvalue]
        rfl
      · exact hclose
    rcases Nat.lt_or_ge n 16 with hn | hn
    · rw [Nat.toDigits_of_lt_base hn, List.singleton_append, hstep digits 0 n hn]
      simp
    · have hlast : n % 16 < 16 := Nat.mod_lt n (by decide)
      have hvalue : 16 * (n / 16) + n % 16 = n := by omega
      rw [Nat.toDigits_of_base_le (by decide) hn, List.append_assoc, ih (n / 16) (by omega),
        List.singleton_append, hstep _ _ _ hlast, hvalue, List.length_append, Nat.add_assoc]
      rfl

theorem codeEscape?_toNat (c : Char) :
    codeEscape? (Nat.toDigits 16 c.toNat).length c.toNat = some c := by
  have hpos : 0 < (Nat.toDigits 16 c.toNat).length := Nat.length_toDigits_pos
  have hlength : (Nat.toDigits 16 c.toNat).length ≤ 6 := by
    rw [Nat.length_toDigits_le_iff (by decide) (by decide)]
    have hvalid := c.valid
    have hnat : c.toNat = c.val.toNat := rfl
    rcases hvalid with hvalid | ⟨-, hvalid⟩ <;> omega
  have hvalid : c.toNat.isValidChar := c.valid
  rw [codeEscape?, if_pos ⟨hpos, hlength, hvalid⟩, Char.ofNat_toNat]

/-- Characters other than quotes and backslashes do not end a text. -/
theorem readQuoted_plain {cs : List Char} (h : ∀ c ∈ cs, c ≠ '"' ∧ c ≠ '\\') (rest : List Char) :
    readQuoted (cs ++ rest) = (readQuoted rest).map fun q => (cs ++ q.1, q.2) := by
  induction cs with
  | nil => simp
  | cons c cs ih =>
    rw [List.forall_mem_cons] at h
    obtain ⟨⟨hquote, hescape⟩, h⟩ := h
    simp [hescape, ih h, Option.map_map, Function.comp_def]

theorem Spells.code (c : Char) : Spells (Text.codeEscape c) [.char c] where
  readQuoted rest := by
    have hplain : ∀ d ∈ '{' :: Nat.toDigits 16 c.toNat ++ ['}'], d ≠ '"' ∧ d ≠ '\\' := by
      intro d hd
      simp only [List.cons_append, List.mem_cons, List.mem_append, List.not_mem_nil, or_false] at hd
      rcases hd with rfl | hd | rfl
      · decide
      · obtain ⟨n, hn, rfl⟩ := exists_of_mem_toDigits hd
        exact ⟨(hexValue?_digitChar hn).2.1, (hexValue?_digitChar hn).2.2.1⟩
      · decide
    have hcode : Text.codeEscape c ++ rest =
        '\\' :: 'u' :: (('{' :: Nat.toDigits 16 c.toNat ++ ['}']) ++ rest) := by
      simp [Text.codeEscape]
    rw [hcode, Source.readQuoted, if_neg (by decide), readQuoted_plain hplain, Option.map_map]
    rfl
  parts rest := by
    have hcode : Text.codeEscape c ++ rest =
        '\\' :: 'u' :: '{' :: (Nat.toDigits 16 c.toNat ++ '}' :: rest) := by
      simp [Text.codeEscape]
    rw [hcode, Source.parts, codeParts_toDigits, Nat.zero_add, codeParts, codeEscape?_toNat,
      Option.map_eq_bind]
    rfl

/-! ## Texts and patterns -/

theorem spells_escapeChar (marks : Bool) (c : Char) :
    Spells (Text.escapeChar Text.bothQuotes marks c) [.char c] := by
  unfold Text.escapeChar
  split_ifs with hnul htab hline hreturn hback hquote hcode
  · exact .letter (by rw [hnul]; rfl)
  · exact .letter (by rw [htab]; rfl)
  · exact .letter (by rw [hline]; rfl)
  · exact .letter (by rw [hreturn]; rfl)
  · exact .letter (by rw [hback]; rfl)
  · simp only [Text.bothQuotes, List.mem_cons, List.not_mem_nil, or_false] at hquote
    rcases hquote with rfl | rfl
    · exact .letter rfl
    · exact .letter rfl
  · exact .code c
  · simp only [Text.bothQuotes, List.mem_cons, List.not_mem_nil, or_false, not_or] at hquote
    exact .char hquote.1 hback hreturn

theorem spells_escapeChars (cs : List Char) :
    Spells (Text.escapeChars cs) (cs.map QuotedPart.char) := by
  cases cs with
  | nil => exact .nil
  | cons c cs =>
    have hrest := Spells.flatMap cs fun c _ => spells_escapeChar false c
    rw [← List.map_eq_flatMap] at hrest
    exact (spells_escapeChar true c).append hrest

theorem readQuoted_escapeChars (cs rest : List Char) :
    readQuoted (Text.escapeChars cs ++ '"' :: rest) = some (Text.escapeChars cs, rest) := by
  rw [(spells_escapeChars cs).readQuoted]
  simp

theorem unescape_escapeChars (cs : List Char) :
    unescape (Text.escapeChars cs) = some (String.ofList cs) := by
  have hparts := (spells_escapeChars cs).parts []
  rw [List.append_nil, parts, Option.map_some, List.append_nil] at hparts
  have hchars : (cs.map QuotedPart.char).mapM QuotedPart.char? = some cs := by
    have hpure := List.mapM_pure (m := Option) (l := cs) (f := id)
    rw [List.map_id] at hpure
    rw [List.mapM_map]
    exact hpure
  rw [unescape, hparts]
  simp [hchars]

/-! ## Patterns -/

/-- The part of a quoted pattern that a character stands for. -/
def patternChar (c : Char) : QuotedPart := if c = '*' then .star else .char c

theorem escapeStars_eq_self {cs : List Char} (h : '*' ∉ cs) : escapeStars cs = cs := by
  induction cs with
  | nil => rfl
  | cons c cs ih =>
    rw [List.mem_cons, not_or] at h
    unfold escapeStars at ih ⊢
    rw [List.flatMap_cons, ih h.2, if_neg (Ne.symm h.1)]
    rfl

theorem star_notMem_escapeChar {c : Char} (h : c ≠ '*') (marks : Bool) :
    '*' ∉ Text.escapeChar Text.bothQuotes marks c := by
  unfold Text.escapeChar
  split_ifs
  · decide
  · decide
  · decide
  · decide
  · decide
  · simp [Ne.symm h]
  · intro hmem
    simp only [Text.codeEscape, List.cons_append, List.nil_append, List.mem_cons, List.mem_append,
      List.not_mem_nil, or_false, Char.reduceEq, false_or] at hmem
    obtain ⟨d, hd, hstar⟩ := exists_of_mem_toDigits hmem
    exact (hexValue?_digitChar hd).2.2.2.2.2 hstar.symm
  · simp [Ne.symm h]

theorem spells_escapeStars (marks : Bool) (c : Char) :
    Spells (escapeStars (Text.escapeChar Text.bothQuotes marks c)) [patternChar c] := by
  by_cases h : c = '*'
  · have hplain : ∀ marks, Text.escapeChar Text.bothQuotes marks '*' = ['*'] := by decide +kernel
    rw [h, hplain]
    exact .star
  · rw [escapeStars_eq_self (star_notMem_escapeChar h marks), patternChar, if_neg h]
    exact spells_escapeChar marks c

/-- The parts of a quoted pattern that a part of a pattern stands for. -/
def patternParts : PatternElem → List QuotedPart
  | .wildcard => [.char '*']
  | .literal s => s.toList.map patternChar

theorem spells_render (e : PatternElem) : Spells (e.render .condition) (patternParts e) := by
  cases e with
  | wildcard => exact .char (by decide) (by decide) (by decide)
  | literal s =>
    show Spells (escapeStars (Text.escapeChars s.toList)) (s.toList.map patternChar)
    cases s.toList with
    | nil => exact .nil
    | cons c cs =>
      have hrest := Spells.flatMap cs fun c _ => spells_escapeStars false c
      have htail : escapeStars (cs.flatMap (Text.escapeChar Text.bothQuotes false)) =
          cs.flatMap fun c => escapeStars (Text.escapeChar Text.bothQuotes false c) :=
        List.flatMap_assoc
      rw [← List.map_eq_flatMap, ← htail] at hrest
      have hsplit : escapeStars (Text.escapeChars (c :: cs)) =
          escapeStars (Text.escapeChar Text.bothQuotes true c) ++
            escapeStars (cs.flatMap (Text.escapeChar Text.bothQuotes false)) :=
        List.flatMap_append
      rw [hsplit]
      exact (spells_escapeStars true c).append hrest

theorem patternElem_patternParts (e : PatternElem) :
    (patternParts e).map QuotedPart.patternElem = PatternElem.letters e := by
  cases e with
  | wildcard => rfl
  | literal s =>
    rw [patternParts, PatternElem.letters, List.map_map]
    refine List.map_congr_left fun c _ => ?_
    by_cases h : c = '*'
    · rw [h]
      rfl
    · simp [patternChar, h, QuotedPart.patternElem]

theorem spells_flatMap_render (pattern : List PatternElem) :
    Spells (pattern.flatMap (PatternElem.render .condition)) (pattern.flatMap patternParts) :=
  .flatMap pattern fun e _ => spells_render e

theorem readQuoted_flatMap_render (pattern : List PatternElem) (rest : List Char) :
    readQuoted (pattern.flatMap (PatternElem.render .condition) ++ '"' :: rest) =
      some (pattern.flatMap (PatternElem.render .condition), rest) := by
  rw [(spells_flatMap_render pattern).readQuoted]
  simp

/-- The text of a pattern stands for the pattern with every character as a part of its own. -/
theorem patternOf_flatMap_render (pattern : List PatternElem) :
    patternOf (pattern.flatMap (PatternElem.render .condition)) =
      some (pattern.flatMap PatternElem.letters) := by
  have hparts := (spells_flatMap_render pattern).parts []
  rw [List.append_nil, parts, Option.map_some, List.append_nil] at hparts
  rw [patternOf, hparts, Option.map_some, List.map_flatMap]
  simp only [patternElem_patternParts]

end AccessPolicy.Cedar.Source
