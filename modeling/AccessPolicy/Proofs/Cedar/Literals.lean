import AccessPolicy.Cedar.Ident
import AccessPolicy.Proofs.Cedar.Scopes
import AccessPolicy.Proofs.Text.Verbatim

/-!
# Entities as assets

An entity of the type for objects is the asset of its identifier, any other entity is the asset of
its literal. The way back takes an asset that looks like a literal for one, and does not undo the
escapes of a literal. So an entity comes back from its asset if its identifier does not look like a
literal, or else if its identifier needs no escape.

* `EntityUid.ofLiteral?_eq_some_iff`: the texts that are literals of an entity.
* `EntityUid.ofLiteral?_text_iff`: the entities that come back from their literal.
* `Config.assetEntity_assetOf_iff`, `Config.assetScope_eq_iff`: the entities and the scopes that
  come back from their asset.
* `Config.resourceScope_scopeAsset`: both, for a policy with the asset and for all types in
  namespaces.
* `Config.apostrophe_lost`: an entity that does not come back.
-/

namespace AccessPolicy.Cedar

/-! ## Literals -/

namespace EntityUid

/-- What stands between the type and the identifier in a literal. -/
def literalMark : List Char := [':', ':', '"']

/-- A text is split at the first mark. -/
theorem splitLiteral_eq_some_iff {cs type rest : List Char} :
    splitLiteral cs = some (type, rest) ↔
      cs = type ++ literalMark ++ rest ∧ ¬ literalMark <:+: type := by
  induction cs using splitLiteral.induct generalizing type with
  | case1 => simp [splitLiteral, literalMark]
  | case2 behind =>
    rw [splitLiteral]
    constructor
    · rintro ⟨⟩
      exact ⟨rfl, by simp [literalMark]⟩
    · rintro ⟨hcs, hmark⟩
      -- a longer type would hold the mark itself
      rcases type with _ | ⟨a, _ | ⟨b, _ | ⟨q, type⟩⟩⟩
      · simpa [literalMark, eq_comm] using hcs
      · simp [literalMark] at hcs
      · simp [literalMark] at hcs
      · simp only [List.cons_append, List.cons.injEq] at hcs
        obtain ⟨rfl, rfl, rfl, -⟩ := hcs
        exact absurd ⟨[], type, rfl⟩ hmark
  | case3 c cs hno ih =>
    have hsplit : splitLiteral (c :: cs) =
        (splitLiteral cs).map fun parts => (c :: parts.1, parts.2) := by
      rw [splitLiteral]
      exact hno
    rw [hsplit, Option.map_eq_some_iff]
    constructor
    · rintro ⟨⟨type', rest'⟩, hrest, ⟨⟩⟩
      obtain ⟨hcs, hmark⟩ := ih.mp hrest
      refine ⟨by rw [hcs]; rfl, fun hwithin => ?_⟩
      rcases List.infix_cons_iff.mp hwithin with ⟨tail, hprefix⟩ | hwithin
      · obtain ⟨rfl, rfl⟩ := List.cons.inj hprefix
        exact hno (tail ++ literalMark ++ rest') rfl hcs
      · exact hmark hwithin
    · rintro ⟨hcs, hmark⟩
      cases type with
      | nil =>
        obtain ⟨rfl, rfl⟩ := List.cons.inj hcs
        exact absurd rfl (hno rest rfl)
      | cons a type =>
        obtain ⟨rfl, htail⟩ := List.cons.inj hcs
        exact ⟨(type, rest), ih.mpr ⟨htail, fun h => hmark (List.infix_cons h)⟩, rfl⟩

/-- A literal is the type, the mark, the identifier without quotes, and a quote. -/
theorem ofLiteral?_eq_some_iff {s : String} {e : EntityUid} :
    ofLiteral? s = some e ↔ e.type ≠ "" ∧ ¬ literalMark <:+: e.type.toList ∧ '"' ∉ e.id.toList ∧
      s.toList = e.type.toList ++ literalMark ++ (e.id.toList ++ ['"']) := by
  obtain ⟨type, id⟩ := e
  have htype : type ≠ "" ↔ type.toList ≠ [] := by rw [Ne, Ne, String.toList_eq_nil_iff]
  simp only [htype]
  unfold ofLiteral?
  constructor
  · intro h
    split at h
    · cases h
    · rename_i type' rest hsplit
      split_ifs at h with hrest
      obtain ⟨hquote, hne, hid⟩ := hrest
      obtain ⟨rfl, rfl⟩ := EntityUid.mk.inj (Option.some.inj h)
      obtain ⟨hs, hmark⟩ := splitLiteral_eq_some_iff.mp hsplit
      simp only [String.toList_ofList]
      refine ⟨hne, hmark, hid, ?_⟩
      rw [hs, List.dropLast_append_getLast? _ hquote]
  · rintro ⟨hne, hmark, hid, hs⟩
    rw [splitLiteral_eq_some_iff.mpr ⟨hs, hmark⟩]
    simp [hne, hid]

/-- An entity is not the one of its identifier. -/
theorem ofLiteral?_id_ne (e : EntityUid) : ofLiteral? e.id ≠ some e := by
  intro h
  obtain ⟨-, -, -, hid⟩ := ofLiteral?_eq_some_iff.mp h
  have hlength := congrArg List.length hid
  simp only [List.length_append, literalMark, List.length_cons, List.length_nil] at hlength
  omega

theorem toList_text (e : EntityUid) :
    e.text.toList = e.type.toList ++ literalMark ++ ((Text.escape e.id).toList ++ ['"']) := by
  unfold text Text.quoted literalMark
  simp [String.toList_append]

/-- An entity comes back from its literal if its type does not hold the mark and its identifier
    needs no escape. -/
theorem ofLiteral?_text_iff {e : EntityUid} :
    ofLiteral? e.text = some e ↔
      e.type ≠ "" ∧ ¬ literalMark <:+: e.type.toList ∧ Text.Verbatim e.id := by
  have htext : e.text.toList = e.type.toList ++ literalMark ++ (e.id.toList ++ ['"']) ↔
      Text.Verbatim e.id := by
    rw [toList_text, List.append_right_inj, List.append_left_inj, String.toList_inj,
      Text.escape_eq_self_iff]
  have hquote : Text.Verbatim e.id → '"' ∉ e.id.toList := fun h hmem =>
    absurd (h.1 '"' hmem) (by decide)
  rw [ofLiteral?_eq_some_iff, htext, and_iff_right_of_imp hquote]

end EntityUid

/-! ## Types in namespaces -/

section Paths

variable {words : List String}

theorem isIdent_ne {s : String} (h : isIdent s = true) : s.toList ≠ [] := by
  intro hs
  unfold isIdent at h
  rw [hs] at h
  cases h

theorem quote_not_mem_of_isIdent {s : String} (h : isIdent s = true) : '"' ∉ s.toList := by
  unfold isIdent at h
  split at h
  · cases h
  · rename_i c rest hs
    rw [Bool.and_eq_true, List.all_eq_true] at h
    rw [hs, List.mem_cons]
    rintro (rfl | hmem)
    · exact absurd h.1 (by decide)
    · exact absurd (h.2 '"' hmem) (by decide)

theorem quote_not_mem_pathText (h : ∀ w ∈ words, isIdent w = true) :
    '"' ∉ (pathText words).toList := by
  unfold pathText
  rw [String.toList_intercalate]
  induction words with
  | nil => simp
  | cons w words ih =>
    obtain ⟨hw, hwords⟩ := List.forall_mem_cons.mp h
    cases words with
    | nil => simpa using quote_not_mem_of_isIdent hw
    | cons w' words =>
      rw [List.map_cons, List.intercalate_cons_of_ne_nil (by simp)]
      simp only [List.mem_append, not_or]
      exact ⟨⟨quote_not_mem_of_isIdent hw, by decide⟩, ih hwords⟩

theorem pathText_ne_empty (hne : words ≠ []) (h : ∀ w ∈ words, isIdent w = true) :
    pathText words ≠ "" := by
  obtain ⟨w, words, rfl⟩ := List.exists_cons_of_ne_nil hne
  have hw : w.toList ≠ [] := isIdent_ne (h w List.mem_cons_self)
  unfold pathText
  rw [Ne, ← String.toList_eq_nil_iff, String.toList_intercalate, List.map_cons]
  cases words with
  | nil => simpa using hw
  | cons w' words =>
    rw [List.intercalate_cons_of_ne_nil (by simp)]
    simp [hw]

end Paths

/-! ## Assets -/

namespace Config

variable {c : Config}

/-- A scope comes back from its asset: it has no limit, or its entity is of the type for objects
    and does not look like a literal, or its entity is of another type and has a literal that leads
    back. -/
def Restores (c : Config) : Scope → Prop
  | .eq e =>
    if e.type = c.qualify c.resourceType then EntityUid.ofLiteral? e.id = none
    else e.type ≠ "" ∧ ¬ EntityUid.literalMark <:+: e.type.toList ∧ Text.Verbatim e.id
  | _ => True

theorem assetEntity_assetOf_iff {e : EntityUid} :
    c.assetEntity (c.assetOf e) = e ↔ c.Restores (.eq e) := by
  rw [assetEntity, assetOf, Restores]
  by_cases htype : e.type = c.qualify c.resourceType
  · rw [if_pos htype, if_pos htype]
    cases hid : EntityUid.ofLiteral? e.id with
    | none => simp [← htype]
    | some e' =>
      have hne : e' ≠ e := fun he => EntityUid.ofLiteral?_id_ne e (he ▸ hid)
      simp [hne]
  · rw [if_neg htype, if_neg htype, ← EntityUid.ofLiteral?_text_iff]
    cases EntityUid.ofLiteral? e.text with
    | none =>
      -- what is not read as a literal becomes an entity of the type for objects
      have hne : ⟨c.qualify c.resourceType, e.text⟩ ≠ e := fun he => htype (by rw [← he])
      simp [hne]
    | some e' => simp

theorem assetScope_eq_iff {s : Scope} {asset : Option String} (h : c.scopeAsset s = .ok asset) :
    c.assetScope asset = s ↔ c.Restores s := by
  obtain ⟨rfl, rfl⟩ | ⟨e, rfl, rfl⟩ := scopeAsset_eq_ok_iff.mp h
  · simp [assetScope, Restores]
  · rw [assetScope, Scope.eq.injEq, assetEntity_assetOf_iff]

/-- **Resources that come back.** A scope that has an asset is the scope of every policy with that
    asset exactly if it has no limit, or is an entity of the type for objects that does not look
    like a literal, or is an entity of another type whose identifier needs no escape and whose type
    does not hold the mark of a literal. The types in namespaces do not hold it, so an entity of
    such a type comes back from its literal exactly if its identifier needs no escape. -/
theorem resourceScope_scopeAsset (c : Config) :
    (∀ (s : Scope) (asset : Option String), c.scopeAsset s = .ok asset →
      ∀ p : AccessPolicy.Policy, p.object.bind Object.assetId = asset →
        (c.resourceScope p = s ↔ c.Restores s)) ∧
    ∀ words : List String, words ≠ [] → (∀ w ∈ words, isIdent w = true) → ∀ id : String,
      (EntityUid.ofLiteral? (EntityUid.text ⟨pathText words, id⟩) = some ⟨pathText words, id⟩ ↔
        Text.Verbatim id) := by
  constructor
  · intro s asset h p hp
    rw [resourceScope, hp, assetScope_eq_iff h]
  · intro words hne hwords id
    have hmark : ¬ EntityUid.literalMark <:+: (pathText words).toList := fun hwithin =>
      quote_not_mem_pathText hwords (hwithin.mem (by decide))
    rw [EntityUid.ofLiteral?_text_iff]
    simp only [pathText_ne_empty hne hwords, hmark, ne_eq, not_false_eq_true, true_and]

theorem resourceScope_scopeAsset_photo :
    ({} : Config).resourceScope
        { object := some { assetId := some (EntityUid.text ⟨"Photo", "a"⟩) } } =
      .eq ⟨"Photo", "a"⟩ ∧
    EntityUid.ofLiteral? (EntityUid.text ⟨"App::Photo", "a"⟩) = some ⟨"App::Photo", "a"⟩ := by
  have hverbatim : Text.Verbatim "a" := by
    have hplain : Text.isVerbatim 'a' = true := by decide +kernel
    have hbase : Text.isCombining 'a' = false := by decide +kernel
    exact ⟨List.forall_mem_singleton.mpr hplain, fun c hc => Option.some.inj hc ▸ hbase⟩
  constructor
  · have hrestores : ({} : Config).Restores (.eq ⟨"Photo", "a"⟩) :=
      ⟨by decide, by decide, hverbatim⟩
    exact ((resourceScope_scopeAsset {}).1 (.eq ⟨"Photo", "a"⟩) _ rfl _ rfl).mpr hrestores
  · have hpath : pathText ["App", "Photo"] = "App::Photo" := by decide
    have hwords : ∀ w ∈ ["App", "Photo"], isIdent w = true := by decide
    rw [← hpath]
    exact ((resourceScope_scopeAsset {}).2 _ (List.cons_ne_nil _ _) hwords "a").mpr hverbatim

/-- But an entity with an apostrophe comes back with a backslash before it. -/
theorem apostrophe_lost :
    ¬ ∀ (c : Config) (s : Scope) (asset : Option String), c.scopeAsset s = .ok asset →
      ∀ p : AccessPolicy.Policy, p.object.bind Object.assetId = asset → c.resourceScope p = s := by
  intro h
  have hrestores : ({} : Config).Restores (.eq ⟨"Photo", "it's"⟩) :=
    (assetScope_eq_iff rfl).mp (h {} (.eq ⟨"Photo", "it's"⟩) _ rfl
      { object := some { assetId := some (EntityUid.text ⟨"Photo", "it's"⟩) } } rfl)
  obtain ⟨-, -, hverbatim⟩ := hrestores
  have happostrophe := hverbatim.1 '\'' (by decide)
  exact absurd happostrophe (by decide)

end Config

end AccessPolicy.Cedar
