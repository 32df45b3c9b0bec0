import AccessPolicy.Json.Printer
import AccessPolicy.Proofs.Json.WellFormed

/-!
# Written texts and numbers

What is written for a text or for an integer that fits a word is read as this text or integer. A
text ends at its quote, and a number at the first character that cannot go on with it.

* `readText_written`: a text behind its opening quote.
* `readNumber_written`: an integer that fits a word.
-/

namespace AccessPolicy.Json

/-! ## Texts -/

theorem hex4?_hexDigit :
    ∀ n < 32, hex4? '0' '0' (hexDigit (n / 16)) (hexDigit n) = some n := by
  decide

/-- Sixteen bits below the surrogates stand for a character of their own. -/
theorem joinParts_unit {bits : Nat} (h : bits < 0xD800) (parts : List TextPart) :
    joinParts (.unit bits :: parts) = (joinParts parts).map (Char.ofNat bits :: ·) := by
  have hhigh : isHighSurrogate bits = false := by
    simp [isHighSurrogate]
    omega
  have hlow : isLowSurrogate bits = false := by
    simp [isLowSurrogate]
    omega
  cases parts with
  | nil => simp [joinParts, hhigh, hlow]
  | cons part parts => cases part <;> simp [joinParts, hhigh, hlow]

theorem textParts_escaped {e c : Char} (h : escaped? e = some c) (rest : List Char) :
    textParts ('\\' :: e :: rest) =
      (textParts rest).map fun found => (.char c :: found.1, found.2) := by
  have hu : e ≠ 'u' := by
    rintro rfl
    cases h
  rw [textParts]
  · rw [h]
    cases textParts rest <;> rfl
  · intro _ _ _ _ _ e _
    exact hu e

theorem textParts_unit {n : Nat} (h : n < 32) (rest : List Char) :
    textParts ('\\' :: 'u' :: '0' :: '0' :: hexDigit (n / 16) :: hexDigit n :: rest) =
      (textParts rest).map fun found => (.unit n :: found.1, found.2) := by
  rw [textParts, hex4?_hexDigit n h]
  cases textParts rest <;> rfl

theorem textParts_char {c : Char} (hquote : c ≠ '"') (hescape : c ≠ '\\') (h : 32 ≤ c.toNat)
    (rest : List Char) :
    textParts (c :: rest) = (textParts rest).map fun found => (.char c :: found.1, found.2) := by
  have hplain : ¬ (c = '\\' || c.toNat < 0x20) = true := by
    simp [hescape]
    omega
  rw [textParts, if_neg hplain]
  · cases textParts rest <;> rfl
  · exact hquote
  · intro _ _ _ _ _ e _
    exact hescape e
  · intro _ _ e _
    exact hescape e

/-- A character is written behind a backslash, as a code, or as it is. -/
theorem textChar_cases (c : Char) :
    (∃ e, escaped? e = some c ∧ textChar c = ['\\', e]) ∨
      (c.toNat < 32 ∧
        textChar c = ['\\', 'u', '0', '0', hexDigit (c.toNat / 16), hexDigit c.toNat]) ∨
      (c ≠ '"' ∧ c ≠ '\\' ∧ 32 ≤ c.toNat ∧ textChar c = [c]) := by
  unfold textChar
  split_ifs with hquote hescape hb hf hn hr ht hcontrol
  · exact Or.inl ⟨'"', by rw [hquote]; rfl, rfl⟩
  · exact Or.inl ⟨'\\', by rw [hescape]; rfl, rfl⟩
  · exact Or.inl ⟨'b', by rw [hb]; rfl, rfl⟩
  · exact Or.inl ⟨'f', by rw [hf]; rfl, rfl⟩
  · exact Or.inl ⟨'n', by rw [hn]; rfl, rfl⟩
  · exact Or.inl ⟨'r', by rw [hr]; rfl, rfl⟩
  · exact Or.inl ⟨'t', by rw [ht]; rfl, rfl⟩
  · exact Or.inr (Or.inl ⟨hcontrol, rfl⟩)
  · exact Or.inr (Or.inr ⟨hquote, hescape, by omega, rfl⟩)

/-- What is written for a character is one part of a text, which stands for the character. -/
theorem exists_textPart (c : Char) :
    ∃ part : TextPart,
      (∀ rest, textParts (textChar c ++ rest) =
        (textParts rest).map fun found => (part :: found.1, found.2)) ∧
      ∀ parts, joinParts (part :: parts) = (joinParts parts).map (c :: ·) := by
  rcases textChar_cases c with ⟨e, he, hc⟩ | ⟨hcode, hc⟩ | ⟨hquote, hescape, hplain, hc⟩
  · refine ⟨.char c, fun rest => ?_, fun parts => by rw [joinParts]⟩
    rw [hc]
    exact textParts_escaped he rest
  · refine ⟨.unit c.toNat, fun rest => ?_, fun parts => ?_⟩
    · rw [hc]
      exact textParts_unit hcode rest
    · rw [joinParts_unit (by omega), Char.ofNat_toNat]
  · refine ⟨.char c, fun rest => ?_, fun parts => by rw [joinParts]⟩
    rw [hc]
    exact textParts_char hquote hescape hplain rest

theorem readText_written (s : String) (rest : List Char) :
    readText (s.toList.flatMap textChar ++ '"' :: rest) = some (some s, rest) := by
  have hparts : ∀ cs : List Char, ∃ parts,
      textParts (cs.flatMap textChar ++ '"' :: rest) = some (parts, rest) ∧
        joinParts parts = some cs := by
    intro cs
    induction cs with
    | nil => exact ⟨[], by simp [textParts], by simp [joinParts]⟩
    | cons c cs ih =>
      obtain ⟨parts, hread, hjoin⟩ := ih
      obtain ⟨part, hpart, hvalue⟩ := exists_textPart c
      refine ⟨part :: parts, ?_, ?_⟩
      · rw [List.flatMap_cons, List.append_assoc, hpart, hread]
        rfl
      · rw [hvalue, hjoin]
        rfl
  obtain ⟨parts, hread, hjoin⟩ := hparts s.toList
  simp [readText, hread, hjoin]

/-! ## Numbers -/

/-- A text with which no number goes on. -/
def Delimited (rest : List Char) : Prop :=
  ∀ c ∈ rest.head?, c.isDigit = false ∧ c ≠ '.' ∧ c ≠ 'e' ∧ c ≠ 'E'

/-- The values of the decimal digits of a number. -/
def digits (n : Nat) : List Nat := (Nat.toDigits 10 n).map digitValue

theorem digits_of_lt {n : Nat} (h : n < 10) : digits n = [n] := by
  rw [digits, Nat.toDigits_of_lt_base h, List.map_singleton]
  congr 1
  exact Nat.toNat_digitChar_sub_48_of_lt_ten h

theorem digits_of_ge {n : Nat} (h : 10 ≤ n) : digits n = digits (n / 10) ++ [n % 10] := by
  rw [digits, Nat.toDigits_of_base_le (by decide) h, List.map_append, List.map_singleton]
  congr 2
  exact Nat.toNat_digitChar_sub_48_of_lt_ten (Nat.mod_lt n (by decide))

/-- The digits of a positive number do not start with zero. -/
theorem exists_digits_eq_cons {n : Nat} (h : 0 < n) : ∃ d ds, digits n = (d + 1) :: ds := by
  induction n using Nat.strongRecOn with
  | _ n ih =>
    rcases Nat.lt_or_ge n 10 with hn | hn
    · exact ⟨n - 1, [], by rw [digits_of_lt hn, Nat.sub_add_cancel h]⟩
    · obtain ⟨d, ds, hds⟩ := ih (n / 10) (by omega) (by omega)
      exact ⟨d, ds ++ [n % 10], by rw [digits_of_ge hn, hds, List.cons_append]⟩

theorem ofDigits_digits (n : Nat) : ofDigits (digits n) = n := by
  induction n using Nat.strongRecOn with
  | _ n ih =>
    rcases Nat.lt_or_ge n 10 with hn | hn
    · simp [digits_of_lt hn, ofDigits]
    · have hrest := ih (n / 10) (by omega)
      unfold ofDigits at hrest ⊢
      rw [digits_of_ge hn, List.foldl_append, hrest, List.foldl_cons, List.foldl_nil]
      omega

theorem le_foldl_digits (acc : Nat) (ds : List Nat) :
    acc ≤ ds.foldl (fun n d => n * 10 + d) acc := by
  induction ds generalizing acc with
  | nil => exact Nat.le_refl acc
  | cons d ds ih =>
    have hnext := ih (acc * 10 + d)
    rw [List.foldl_cons]
    omega

/-- Digits that stay below the size of a word are all taken up. -/
theorem absorb_eq {acc : Nat} {ds : List Nat}
    (h : ds.foldl (fun n d => n * 10 + d) acc < Numeral.wordSize) :
    Numeral.absorb acc ds = (ds.foldl (fun n d => n * 10 + d) acc, 0) := by
  induction ds generalizing acc with
  | nil => rfl
  | cons d ds ih =>
    rw [List.foldl_cons] at h ⊢
    have hle := le_foldl_digits (acc * 10 + d) ds
    rw [Numeral.absorb, if_pos (by omega), ih h]

theorem isDigit_of_mem_digitChars {n : Nat} {c : Char} (h : c ∈ digitChars n) :
    c.isDigit = true :=
  Nat.isDigit_of_mem_toDigits (by decide) (by decide) h

theorem takeDigits_written (n : Nat) {rest : List Char} (h : Delimited rest) :
    takeDigits (digitChars n ++ rest) = (digits n, rest) := by
  have hdigits : ∀ c ∈ digitChars n, c.isDigit = true := fun c => isDigit_of_mem_digitChars
  have hstop : rest.takeWhile Char.isDigit = [] ∧ rest.dropWhile Char.isDigit = rest := by
    cases rest with
    | nil => exact ⟨rfl, rfl⟩
    | cons c rest =>
      have hc := (h c rfl).1
      simp [hc]
  unfold takeDigits
  rw [List.takeWhile_append_of_pos hdigits, List.dropWhile_append_of_pos hdigits, hstop.1, hstop.2,
    List.append_nil]
  rfl

theorem readWhole_written (n : Nat) {rest : List Char} (h : Delimited rest) :
    readWhole (digitChars n ++ rest) = some (digits n, rest) := by
  unfold readWhole
  rw [takeDigits_written n h]
  rcases Nat.eq_zero_or_pos n with rfl | hn
  · rw [digits_of_lt (by decide)]
    rfl
  · obtain ⟨d, ds, hds⟩ := exists_digits_eq_cons hn
    rw [hds]
    rfl

theorem readUnsigned_written (negative : Bool) (n : Nat) {rest : List Char} (h : Delimited rest) :
    readUnsigned negative (digitChars n ++ rest) =
      some (⟨negative, digits n, none, none⟩, rest) := by
  have hfraction : readFraction rest = some (none, rest) := by
    unfold readFraction
    split
    · exact absurd rfl (h '.' rfl).2.1
    · rfl
  have hexponent : readExponent rest = some (none, rest) := by
    unfold readExponent
    split
    · exact absurd rfl (h 'e' rfl).2.2.1
    · exact absurd rfl (h 'E' rfl).2.2.2
    · rfl
  simp [readUnsigned, readWhole_written n h, hfraction, hexponent]

theorem absorb_digits {n : Nat} (h : n < Numeral.wordSize) :
    Numeral.absorb 0 (digits n) = (n, 0) := by
  have hvalue : (digits n).foldl (fun n d => n * 10 + d) 0 = n := ofDigits_digits n
  rw [absorb_eq (by rw [hvalue]; exact h), hvalue]

theorem pow2_63 : Decimal.pow2 63 = 9223372036854775808 := by decide

theorem pow2_64 : Decimal.pow2 64 = 18446744073709551616 := by decide

theorem value?_digits {n : Nat} (h : n < Numeral.wordSize) :
    Numeral.value? ⟨false, digits n, none, none⟩ = some (.int n) := by
  unfold Numeral.value?
  rw [absorb_digits h]
  rfl

theorem value?_negative {n : Nat} (hpositive : n ≠ 0) (h : n ≤ Decimal.pow2 63) :
    Numeral.value? ⟨true, digits n, none, none⟩ = some (.int (-n)) := by
  have hword : n < Numeral.wordSize := by
    unfold Numeral.wordSize
    rw [pow2_63] at h
    rw [pow2_64]
    omega
  unfold Numeral.value?
  rw [absorb_digits hword]
  simp [hpositive, h]

theorem exists_digitChars_eq_cons (n : Nat) :
    ∃ c cs, digitChars n = c :: cs ∧ c.isDigit = true := by
  have hne : digitChars n ≠ [] := Nat.toDigits_ne_nil
  obtain ⟨c, cs, hcs⟩ := List.exists_cons_of_ne_nil hne
  refine ⟨c, cs, hcs, isDigit_of_mem_digitChars (?_ : c ∈ digitChars n)⟩
  rw [hcs]
  exact List.mem_cons_self

/-- An integer is written with its digits, behind a sign if it is negative. -/
theorem toList_toString (n : Int) :
    (toString n).toList =
      if n < 0 then '-' :: digitChars n.natAbs else digitChars n.natAbs := by
  rw [Int.toString_eq_repr, Int.repr_eq_if]
  by_cases h : n < 0
  · have habs : (-n).toNat = n.natAbs := by omega
    rw [if_neg (by omega), if_pos h, habs, String.toList_append, Nat.toList_repr]
    rfl
  · have habs : n.toNat = n.natAbs := by omega
    rw [if_pos (by omega), if_neg h, habs, Nat.toList_repr]
    rfl

theorem exists_toString_eq_cons (n : Int) :
    ∃ c tail, (toString n).toList = c :: tail ∧ (c = '-' ∨ c.isDigit = true) := by
  rw [toList_toString]
  split_ifs
  · exact ⟨'-', _, rfl, Or.inl rfl⟩
  · obtain ⟨c, tail, hcs, hc⟩ := exists_digitChars_eq_cons n.natAbs
    exact ⟨c, tail, hcs, Or.inr hc⟩

theorem readNumber_written {n : Int} (h : (Number.int n).IsWord) {rest : List Char}
    (hrest : Delimited rest) :
    readNumber ((toString n).toList ++ rest) = some (some (.int n), rest) := by
  obtain ⟨hlow, hhigh⟩ := h
  rw [toList_toString]
  split_ifs with hn
  · have hvalue : Numeral.value? ⟨true, digits n.natAbs, none, none⟩ = some (.int n) := by
      have habs : -(n.natAbs : Int) = n := by omega
      rw [value?_negative (by omega) (by omega), habs]
    rw [List.cons_append, readNumber, readUnsigned_written true n.natAbs hrest]
    exact congrArg (fun value => some (value, rest)) hvalue
  · have hvalue : Numeral.value? ⟨false, digits n.natAbs, none, none⟩ = some (.int n) := by
      have hword : n.natAbs < Numeral.wordSize := by
        unfold Numeral.wordSize
        omega
      have habs : (n.natAbs : Int) = n := by omega
      rw [value?_digits hword, habs]
    obtain ⟨c, cs, hcs, hc⟩ := exists_digitChars_eq_cons n.natAbs
    rw [readNumber, readUnsigned_written false n.natAbs hrest]
    · exact congrArg (fun value => some (value, rest)) hvalue
    · intro tail e
      rw [hcs, List.cons_append] at e
      rw [(List.cons.inj e).1] at hc
      cases hc

end AccessPolicy.Json
