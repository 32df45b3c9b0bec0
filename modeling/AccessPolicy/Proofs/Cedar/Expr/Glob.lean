import AccessPolicy.Proofs.Cedar.Expr.Normal
import AccessPolicy.Proofs.Cedar.Expr.RoundTrip
import Mathlib.Data.List.Chain
import Mathlib.Tactic.SplitIfs

/-!
# Patterns written as globs

A glob is read into a pattern in normal form: no text is empty and no two texts stand side by side.
Every pattern has a glob, in which stars and backslashes of its texts are escaped, and reading it
gives the pattern with its texts joined. So patterns in normal form are read back as they are.

* `IsCanonical`: a pattern is in normal form.
* `toGlob`: the glob of a pattern.
* `ofGlob_toGlob`: a glob that was written is read as the pattern with its texts joined.
* `ofGlob_spec`: what is read from globs, and what is read back.
* `listOfJson_toGlob`: a glob and a list of parts are read as the same pattern, but for texts that
  are joined.
-/

namespace AccessPolicy.Cedar.PatternElem

variable {e : PatternElem} {pattern rest : List PatternElem}

/-! ## Normal form -/

/-- No text is empty, and of two neighbours one is a wildcard. -/
structure IsCanonical (pattern : List PatternElem) : Prop where
  literal_ne : .literal "" ∉ pattern
  apart : pattern.IsChain fun e e' => e = .wildcard ∨ e' = .wildcard

namespace IsCanonical

theorem nil : IsCanonical [] where
  literal_ne := List.not_mem_nil
  apart := .nil

theorem tail (h : IsCanonical (e :: rest)) : IsCanonical rest where
  literal_ne hmem := h.literal_ne (List.mem_cons_of_mem e hmem)
  apart := (List.isChain_cons.mp h.apart).2

theorem wildcard (h : IsCanonical rest) : IsCanonical (.wildcard :: rest) where
  literal_ne := by simpa using h.literal_ne
  apart := List.isChain_cons.mpr ⟨fun _ _ => Or.inl rfl, h.apart⟩

/-- A text stands before a wildcard or at the end. -/
theorem literal_iff {s : String} :
    IsCanonical (.literal s :: rest) ↔
      s ≠ "" ∧ (∀ e ∈ rest.head?, e = .wildcard) ∧ IsCanonical rest := by
  constructor
  · intro h
    refine ⟨?_, ?_, h.tail⟩
    · rintro rfl
      exact h.literal_ne List.mem_cons_self
    · intro e he
      exact ((List.isChain_cons.mp h.apart).1 e he).resolve_left (by simp)
  · rintro ⟨hs, hhead, h⟩
    refine ⟨?_, List.isChain_cons.mpr ⟨fun e he => Or.inr (hhead e he), h.apart⟩⟩
    rw [List.mem_cons, literal.injEq]
    exact not_or.mpr ⟨hs.symm, h.literal_ne⟩

/-- A part that is put before a pattern leaves it in normal form. -/
theorem joinTo (h : IsCanonical rest) (e : PatternElem) : IsCanonical (e.joinTo rest) := by
  have hfresh : ∀ s, (∀ e ∈ rest.head?, e = .wildcard) →
      IsCanonical (if s = "" then rest else .literal s :: rest) := by
    intro s hhead
    split_ifs with hs
    · exact h
    · exact literal_iff.mpr ⟨hs, hhead, h⟩
  match e, rest with
  | .wildcard, rest => exact h.wildcard
  | .literal s, [] => exact hfresh s (by simp)
  | .literal s, .wildcard :: rest => exact hfresh s (by simp)
  | .literal s, .literal t :: rest =>
    obtain ⟨ht, hhead, hrest⟩ := literal_iff.mp h
    exact literal_iff.mpr ⟨by simp [ht], hhead, hrest⟩

theorem joined_eq_self (h : IsCanonical pattern) : joined pattern = pattern := by
  induction pattern with
  | nil => rfl
  | cons e rest ih =>
    have hstep : joined (e :: rest) = e.joinTo rest := by
      unfold joined
      rw [List.foldr_cons]
      exact congrArg e.joinTo (ih h.tail)
    rw [hstep]
    cases e with
    | wildcard => rfl
    | literal s =>
      obtain ⟨hs, hhead, -⟩ := literal_iff.mp h
      match rest with
      | [] => exact if_neg hs
      | .wildcard :: rest => exact if_neg hs
      | .literal t :: rest => cases hhead (.literal t) rfl

end IsCanonical

theorem isCanonical_joined (pattern : List PatternElem) : IsCanonical (joined pattern) := by
  induction pattern with
  | nil => exact .nil
  | cons e rest ih => exact ih.joinTo e

/-- Exactly in normal form there is nothing to join. -/
theorem joined_eq_self_iff : joined pattern = pattern ↔ IsCanonical pattern := by
  constructor
  · intro h
    rw [← h]
    exact isCanonical_joined pattern
  · exact IsCanonical.joined_eq_self

/-! ## Reading globs -/

theorem ofText_eq_joinTo (text : List Char) :
    ofText text = joinTo (.literal (String.ofList text)) [] := by
  cases text with
  | nil => rfl
  | cons c text => exact (if_neg (by simp)).symm

theorem ofText_append_wildcard (text : List Char) (rest : List PatternElem) :
    ofText text ++ .wildcard :: rest =
      joinTo (.literal (String.ofList text)) (.wildcard :: rest) := by
  cases text with
  | nil => rfl
  | cons c text => exact (if_neg (by simp)).symm

/-- What is read is in normal form, whatever text stands before the glob. -/
theorem isCanonical_ofGlobAfter (text cs : List Char) : IsCanonical (ofGlobAfter text cs) := by
  -- only the end of the glob and a star give parts, and both are put before what is in normal form
  fun_induction ofGlobAfter text cs with
  | case1 text =>
    rw [ofText_eq_joinTo]
    exact IsCanonical.nil.joinTo _
  | case2 text =>
    rw [ofText_eq_joinTo]
    exact IsCanonical.nil.joinTo _
  | case3 text c rest ih => exact ih
  | case4 text rest ih =>
    rw [ofText_append_wildcard]
    exact ih.wildcard.joinTo _
  | case5 text c rest _ _ _ ih => exact ih

/-! ## Writing globs -/

/-- A character of a text in a glob. Stars and backslashes are escaped. -/
def globChar (c : Char) : List Char := if c = '*' ∨ c = '\\' then ['\\', c] else [c]

/-- The characters of a part in a glob. -/
def globChars : PatternElem → List Char
  | .literal s => s.toList.flatMap globChar
  | .wildcard => ['*']

/-- The glob of a pattern. -/
def toGlob (pattern : List PatternElem) : String := String.ofList (pattern.flatMap globChars)

/-- A character of a text is added to the text before it. -/
theorem ofGlobAfter_globChar (text : List Char) (c : Char) (cs : List Char) :
    ofGlobAfter text (globChar c ++ cs) = ofGlobAfter (text ++ [c]) cs := by
  unfold globChar
  split_ifs with h
  · rfl
  · obtain ⟨hstar, hescape⟩ := not_or.mp h
    rw [List.singleton_append, ofGlobAfter]
    · exact fun h _ => hescape h
    · exact fun _ _ h _ => hescape h
    · exact hstar

/-- The text of a part is added to the text before it. -/
theorem ofGlobAfter_text (text s cs : List Char) :
    ofGlobAfter text (s.flatMap globChar ++ cs) = ofGlobAfter (text ++ s) cs := by
  induction s generalizing text with
  | nil => simp
  | cons c s ih =>
    rw [List.flatMap_cons, List.append_assoc, ofGlobAfter_globChar, ih, List.append_assoc,
      List.singleton_append]

/-- The glob of a pattern is read as its parts, joined to the text before them. -/
theorem ofGlobAfter_globChars (text : List Char) (pattern : List PatternElem) :
    ofGlobAfter text (pattern.flatMap globChars) =
      joinTo (.literal (String.ofList text)) (joined pattern) := by
  -- a wildcard ends the text before it, and the text of a part goes on with it
  induction pattern generalizing text with
  | nil => exact ofText_eq_joinTo text
  | cons e pattern ih =>
    rw [List.flatMap_cons]
    cases e with
    | wildcard =>
      rw [globChars, List.singleton_append, ofGlobAfter, ih, String.ofList_nil, joinTo_empty,
        ofText_append_wildcard]
      rfl
    | literal s =>
      rw [globChars, ofGlobAfter_text, ih, String.ofList_append, String.ofList_toList,
        joinTo_append]
      rfl

/-- A glob that was written is read as the pattern with its texts joined. -/
theorem ofGlob_toGlob (pattern : List PatternElem) : ofGlob (toGlob pattern) = joined pattern := by
  unfold ofGlob toGlob
  rw [String.toList_ofList, ofGlobAfter_globChars]
  exact joinTo_empty _

/-- **Globs.** Every glob is read as a pattern in normal form, and a pattern is read back from its
    glob exactly if it is in normal form. -/
theorem ofGlob_spec :
    (∀ glob, IsCanonical (ofGlob glob)) ∧
      ∀ pattern, ofGlob (toGlob pattern) = pattern ↔ IsCanonical pattern := by
  constructor
  · exact fun glob => isCanonical_ofGlobAfter [] glob.toList
  · intro pattern
    rw [ofGlob_toGlob, joined_eq_self_iff]

/-- A backslash makes the next character part of a text, and stands for itself at the end. -/
example : ofGlob "\\\\a**\\b\\*c\\" =
    [.literal "\\a", .wildcard, .wildcard, .literal "b*c\\"] := by decide

/-- A glob is read as the list of the parts that it stands for, with the texts joined. -/
theorem listOfJson_toGlob (pattern : List PatternElem) :
    listOfJson (.string (toGlob pattern)) =
      (listOfJson (.array (pattern.map toJson))).map joined := by
  change Except.ok (ofGlob (toGlob pattern)) = ((pattern.map toJson).mapM ofJson).map joined
  rw [ofGlob_toGlob, mapM_ofJson_toJson]
  rfl

end AccessPolicy.Cedar.PatternElem
