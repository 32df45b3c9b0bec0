import AccessPolicy.Text.Escape
import Mathlib.Data.List.Basic

/-!
# Texts that stand for themselves

Escaping replaces a character by at least two, or leaves it as it is. So a text is its own escaped
form exactly if none of its characters is escaped where it stands.

* `Verbatim`: a text without characters that are escaped.
* `two_le_length_escapeChar`, `escapeChar_eq_self_iff`: the characters that are escaped become
  longer, and which ones are not.
* `escape_eq_self_iff`: the texts that are their own escaped form.
-/

namespace AccessPolicy.Text

/-- A character stands for itself between quotes, unless it is a combining mark at the start. -/
def isVerbatim (c : Char) : Bool :=
  c ∉ ['"', '\'', '\\'] && !isUnprintable c && !isDefaultIgnorable c

/-- All characters of a text stand for themselves, and the first one is no combining mark. -/
def Verbatim (s : String) : Prop :=
  (∀ c ∈ s.toList, isVerbatim c = true) ∧ ∀ c ∈ s.toList.head?, isCombining c = false

instance (s : String) : Decidable (Verbatim s) :=
  inferInstanceAs (Decidable ((∀ c ∈ s.toList, isVerbatim c = true) ∧
    ∀ c ∈ s.toList.head?, isCombining c = false))

theorem two_le_length_codeEscape (c : Char) : 2 ≤ (codeEscape c).length := by
  simp [codeEscape]

/-- A character that is escaped becomes longer. -/
theorem two_le_length_escapeChar {marks : Bool} {c : Char}
    (h : escapeChar bothQuotes marks c ≠ [c]) :
    2 ≤ (escapeChar bothQuotes marks c).length := by
  unfold escapeChar at h ⊢
  split_ifs at h ⊢ <;> simp [two_le_length_codeEscape] at h ⊢

theorem escapeChar_eq_self_iff {marks : Bool} {c : Char} :
    escapeChar bothQuotes marks c = [c] ↔
      isVerbatim c = true ∧ ¬ (marks = true ∧ isCombining c = true) := by
  have hcontrol : isUnprintable '\x00' = true ∧ isUnprintable '\t' = true ∧
      isUnprintable '\n' = true ∧ isUnprintable '\r' = true := by decide
  unfold escapeChar isVerbatim
  split_ifs with hnul htab hline hreturn hback hquote hcode
  · simp [hnul, hcontrol]
  · simp [htab, hcontrol]
  · simp [hline, hcontrol]
  · simp [hreturn, hcontrol]
  · simp [hback]
  · have hmem : c ∈ ['"', '\'', '\\'] := List.mem_append_left ['\\'] hquote
    simp [hmem]
  · have hlong : codeEscape c ≠ [c] := by
      intro h
      have hlength := two_le_length_codeEscape c
      simp [h] at hlength
    simp only [Bool.or_eq_true, Bool.and_eq_true] at hcode
    simp only [hlong, false_iff, Bool.and_eq_true, Bool.not_eq_true']
    rintro ⟨⟨⟨-, hprintable⟩, hshown⟩, hmark⟩
    rcases hcode with (hcode | hcode) | hcode
    · exact hmark hcode
    · rw [hprintable] at hcode
      cases hcode
    · rw [hshown] at hcode
      cases hcode
  · have hquotes : c ∉ ['"', '\'', '\\'] := by
      simp only [bothQuotes, List.mem_cons, List.not_mem_nil, or_false, not_or] at hquote ⊢
      exact ⟨hquote.1, hquote.2, hback⟩
    simp only [Bool.or_eq_true, Bool.and_eq_true, not_or, Bool.not_eq_true] at hcode
    simp [hquotes, hcode]

/-- A text does not become shorter. -/
theorem length_le_length_flatMap (cs : List Char) :
    cs.length ≤ (cs.flatMap (escapeChar bothQuotes false)).length := by
  induction cs with
  | nil => exact Nat.le_refl 0
  | cons c cs ih =>
    have hc : 1 ≤ (escapeChar bothQuotes false c).length := by
      by_cases h : escapeChar bothQuotes false c = [c]
      · rw [h]
        exact Nat.le_refl 1
      · exact Nat.le_of_succ_le (two_le_length_escapeChar h)
    rw [List.flatMap_cons, List.length_append, List.length_cons]
    omega

/-- A text stays as it is only if its first character does, since the others cannot make up for a
    longer one. -/
theorem escapeChar_append_eq_iff {marks : Bool} {c : Char} {cs : List Char} :
    escapeChar bothQuotes marks c ++ cs.flatMap (escapeChar bothQuotes false) = c :: cs ↔
      escapeChar bothQuotes marks c = [c] ∧ cs.flatMap (escapeChar bothQuotes false) = cs := by
  by_cases h : escapeChar bothQuotes marks c = [c]
  · simp [h]
  · simp only [h, false_and, iff_false]
    intro heq
    have hlength := congrArg List.length heq
    rw [List.length_append, List.length_cons] at hlength
    have hc := two_le_length_escapeChar h
    have hcs := length_le_length_flatMap cs
    omega

theorem flatMap_escapeChar_eq_self_iff {cs : List Char} :
    cs.flatMap (escapeChar bothQuotes false) = cs ↔ ∀ c ∈ cs, isVerbatim c = true := by
  induction cs with
  | nil => simp
  | cons c cs ih =>
    rw [List.flatMap_cons, escapeChar_append_eq_iff, escapeChar_eq_self_iff, ih,
      List.forall_mem_cons]
    simp

/-- A text is its own escaped form exactly if its characters stand for themselves. -/
theorem escape_eq_self_iff {s : String} : escape s = s ↔ Verbatim s := by
  have hchars : ∀ cs : List Char, escapeChars cs = cs ↔
      (∀ c ∈ cs, isVerbatim c = true) ∧ ∀ c ∈ cs.head?, isCombining c = false := by
    intro cs
    cases cs with
    | nil => simp [escapeChars]
    | cons c cs =>
      rw [escapeChars, escapeChar_append_eq_iff, escapeChar_eq_self_iff,
        flatMap_escapeChar_eq_self_iff, List.forall_mem_cons]
      simp only [true_and, Bool.not_eq_true, List.head?_cons, Option.mem_def, Option.some.injEq,
        forall_eq']
      exact and_right_comm
  have hlist : escape s = s ↔ escapeChars s.toList = s.toList := by
    unfold escape
    rw [← String.toList_inj, String.toList_ofList]
  rw [hlist, hchars, Verbatim]

end AccessPolicy.Text
