import AccessPolicy.Proofs.Cedar.Expr.Display

/-!
# The text of a condition determines it

Two expressions with one text are read alike, so they have one normal form. What the text does not
tell is whether a minus sign before attributes and methods of an integer belongs to the integer.

* `spoken_eq_of_display_eq`: one text, one normal form.
* `display_neg`, `normalBy_neg_ne`: two expressions for a minus sign before attributes and methods.
* `display_determines`: what the text determines, and what it hides.
-/

namespace AccessPolicy.Cedar.Expr

open ConditionText

/-! ## Expressions of one text -/

/-- Two expressions of one text are read alike. -/
theorem spoken_eq_of_display_eq {n m : Expr} (hn : ∀ t ∈ n.types, IsPath t)
    (hm : ∀ t ∈ m.types, IsPath t) (h : n.display = m.display) : n.spoken = m.spoken := by
  have hreadn := (readBack n hn).reads [] .nil
  have hreadm := (readBack m hm).reads [] .nil
  rw [h] at hreadn
  obtain ⟨k, hkn, hkm⟩ := (hreadn.and hreadm).exists
  exact (Prod.mk.inj (Option.some.inj (hkn.symm.trans hkm))).1

/-! ## Minus signs -/

theorem isCompound_negated (a : Expr) : a.negated.isCompound = a.isCompound := by
  cases a with
  | value l => cases l <;> rfl
  | _ => rfl

theorem isCompound_of_isPositiveChain {a : Expr} (h : a.isPositiveChain) :
    a.isCompound = false := by
  by_contra hcompound
  rw [isPositiveChain_of_isCompound (Bool.eq_true_of_not_eq_false hcompound)] at h
  cases h

theorem toInt_neg_of_pos {n : Int64} (h : 0 < n) : (-n).toInt = -n.toInt := by
  rw [Int64.lt_iff_toInt_lt, Int64.toInt_zero] at h
  have hlt := n.toInt_lt
  have hneg : (-Int64.ofNat n.toInt.natAbs).toInt = -(n.toInt.natAbs : Int) :=
    Int64.toInt_neg_ofNat_of_le (by omega)
  rw [Literal.ofNat_natAbs_toInt (by omega)] at hneg
  omega

/-- The minus sign of an integer comes first in the text of its attributes and methods. -/
theorem display_negated : ∀ a : Expr, a.isPositiveChain → a.negated.display = "-" ++ a.display
  | .value l, h => by
    cases l with
    | long n =>
      have hpositive : 0 < n := of_decide_eq_true h
      have hneg := toInt_neg_of_pos hpositive
      rw [Int64.lt_iff_toInt_lt, Int64.toInt_zero] at hpositive
      have hminus := Literal.toList_display_long (-n)
      have hplain := Literal.toList_display_long n
      rw [hneg, if_pos (by omega), Int.natAbs_neg] at hminus
      rw [if_neg (by omega)] at hplain
      rw [← String.toList_inj, String.toList_append]
      show (Literal.display (.long (-n))).toList = "-".toList ++ (Literal.display (.long n)).toList
      rw [hminus, hplain]
      rfl
    | _ => cases h
  | .binary op a b, h => by
    obtain ⟨hop, ha⟩ := Bool.and_eq_true_iff.mp h
    have hrest := display_negated a ha
    have hcompound := isCompound_of_isPositiveChain ha
    unfold display at hrest ⊢
    simp [negated, render, hop, isCompound_negated, hcompound, parenthesized, hrest,
      String.append_assoc]
  | .attr op a name, h => by
    obtain ⟨hop, ha⟩ := Bool.and_eq_true_iff.mp h
    obtain rfl := of_decide_eq_true hop
    have hrest := display_negated a ha
    have hcompound := isCompound_of_isPositiveChain ha
    unfold display at hrest ⊢
    simp [negated, render, isCompound_negated, hcompound, parenthesized, hrest,
      String.append_assoc]
  | .call _ [], h => by simp [isPositiveChain, startsPositiveChain] at h
  | .call f (a :: args), h => by
    obtain ⟨hf, ha⟩ := Bool.and_eq_true_iff.mp h
    have hrest := display_negated a ha
    have hcompound := isCompound_of_isPositiveChain ha
    rw [Bool.not_eq_true'] at hf
    unfold display at hrest ⊢
    simp [negated, negatedFirst, render, hf, isCompound_negated, hcompound, parenthesized, hrest,
      String.append_assoc]

/-- A negation of attributes and methods has the text of those of the negated integer. -/
theorem display_neg {a : Expr} (h : a.isPositiveChain) :
    (Expr.neg a).display = a.negated.display := by
  have hcompound := isCompound_of_isPositiveChain h
  rw [display_negated a h]
  simp [display, render, parenthesized, hcompound, Style.condition]

/-- The two have different normal forms if only integers take up a sign. -/
theorem normalBy_neg_ne {takesSign : Expr → Bool} (hsign : ∀ e, takesSign e → ∃ n, e = .long n)
    {a : Expr} (hchain : a.isPositiveChain) (hpositive : a.isPositive = false) :
    (Expr.neg a).normalBy takesSign ≠ a.negated.normalBy takesSign := by
  have hkept : takesSign a = false := by
    by_contra htakes
    obtain ⟨n, rfl⟩ := hsign a (Bool.eq_true_of_not_eq_false htakes)
    exact Bool.eq_false_iff.mp hpositive hchain
  rw [normalBy, hkept]
  cases a with
  | value l => exact absurd hchain (Bool.eq_false_iff.mp hpositive)
  | binary op a b => simp [negated, normalBy]
  | attr op a name => simp [negated, normalBy]
  | call f args => simp [negated, normalBy]
  | _ => cases hchain

/-! ## What the text determines -/

/-- **Text of conditions.** Let the types of two expressions be paths. If the expressions have one
    text, then they are equal up to constants and what makes them, texts of patterns that are
    joined, and a minus sign before attributes and methods of a positive integer. If no such
    attribute or method is negated, only the sign of an integer may be written in two ways. Where
    one is negated, the text does hide whether the sign belongs to the integer. -/
theorem display_determines (n m : Expr) (hn : ∀ t ∈ n.types, IsPath t)
    (hm : ∀ t ∈ m.types, IsPath t) :
    (n.display = m.display →
      n.spoken = m.spoken ∧ (n.plainSigns → m.plainSigns → n.normal = m.normal)) ∧
    ∀ a : Expr, a.isPositiveChain → a.isPositive = false →
      (Expr.neg a).display = a.negated.display ∧
        ∀ takesSign : Expr → Bool, (∀ e, takesSign e → ∃ n, e = .long n) →
          (Expr.neg a).normalBy takesSign ≠ a.negated.normalBy takesSign := by
  refine ⟨fun h => ?_, fun a hchain hpositive => ?_⟩
  · have hspoken := spoken_eq_of_display_eq hn hm h
    refine ⟨hspoken, fun hplainn hplainm => ?_⟩
    rw [normal, normal, ← spoken_eq_normal n hplainn, ← spoken_eq_normal m hplainm]
    exact hspoken
  · exact ⟨display_neg hchain, fun takesSign hsign => normalBy_neg_ne hsign hchain hpositive⟩

/-- A set and a constant set, with an album in a namespace. -/
theorem display_determines_album :
    let album : EntityUid := ⟨"Photo::Album", "summer"⟩
    let made : Expr := .set [.entity album, .neg (.long 5), .call .decimal [.string "1.5"]]
    let constant : Expr := .value (.set [.entity album, .long (-5), .decimal "1.5"])
    made.display = constant.display ∧ made ≠ constant ∧ made.normal = constant.normal ∧
      (Expr.neg (.attr .access (.long 5) "size")).display =
        (Expr.attr .access (.long (-5)) "size").display := by
  intro album made constant
  have hpath : IsPath "Photo::Album" := ⟨["Photo", "Album"], by decide, by decide, rfl⟩
  have hmade : ∀ t ∈ made.types, IsPath t := fun t ht => by
    rw [List.mem_singleton.mp ht]
    exact hpath
  have hconstant : ∀ t ∈ constant.types, IsPath t := fun t ht => by
    rw [List.mem_singleton.mp ht]
    exact hpath
  have hdisplay : made.display = constant.display := by decide +kernel
  obtain ⟨hread, hhidden⟩ := display_determines made constant hmade hconstant
  have hsize := hhidden (.attr .access (.long 5) "size") (by decide) rfl
  exact ⟨hdisplay, by decide, (hread hdisplay).2 rfl rfl, hsize.1⟩

/-- The text does not determine an expression up to the sign of integers, whichever of them take it
    up: the size of minus five and the negated size of five have one text. -/
theorem sign_hidden :
    ¬∃ takesSign : Expr → Bool, (∀ e, takesSign e → ∃ n, e = .long n) ∧
      ∀ n m : Expr, (∀ t ∈ n.types, IsPath t) → (∀ t ∈ m.types, IsPath t) →
        n.display = m.display → n.normalBy takesSign = m.normalBy takesSign := by
  rintro ⟨takesSign, hsign, h⟩
  have hdisplay : (Expr.neg (.attr .access (.long 5) "size")).display =
      (Expr.attr .access (.long (-5)) "size").display := by decide +kernel
  have htypes : ∀ t ∈ ([] : List String), IsPath t := fun t ht => by cases ht
  exact normalBy_neg_ne hsign (a := .attr .access (.long 5) "size") (by decide) rfl
    (h _ _ htypes htypes hdisplay)

end AccessPolicy.Cedar.Expr
