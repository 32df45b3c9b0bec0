import AccessPolicy.Proofs.Cedar.Expr.Canonical

/-!
# Expressions read back

Writing an expression and reading its document gives the expression with constants in place of
constructors, and an expression that was read is read back unchanged.

* `ofEntry_binary`, `ofEntry_attr`, `ofEntry_call`: nodes whose key is an operator or a function.
* `ofJson_toJson_of_canonical`: canonical expressions are read back.
* `canonical_ofEntry`, `canonical_of_ofJson`: what reading makes.
* `ofJson_round_trip`: both directions.
-/

namespace AccessPolicy.Cedar

open Outcome

namespace PatternElem

theorem ofJson_toJson (e : PatternElem) : ofJson e.toJson = .ok e := by
  cases e <;> rfl

theorem mapM_ofJson_toJson (pattern : List PatternElem) :
    (pattern.map toJson).mapM ofJson = .ok pattern :=
  mapM_map_eq_ok fun e _ => ofJson_toJson e

end PatternElem

namespace Expr

/-! ## Results of several expressions -/

theorem collect_eq_ok_iff {read : List (Except Error Expr)} {es : List Expr} :
    collect read = .ok es ↔ read = es.map .ok := by
  induction read generalizing es with
  | nil =>
    rw [collect, Except.ok.injEq, eq_comm (a := []), eq_comm (a := []), List.map_eq_nil_iff]
  | cons r read ih =>
    rw [collect]
    simp only [bind_eq_ok_iff, pure_eq_ok_iff, ih]
    constructor
    · rintro ⟨e, rfl, rest, rfl, rfl⟩
      rfl
    · intro h
      cases es with
      | nil => cases h
      | cons e rest =>
        obtain ⟨hr, hread⟩ := List.cons.inj h
        exact ⟨e, hr, rest, hread, rfl⟩

theorem collectFields_eq_ok_iff {fields : ReadFields} {fs : List (String × Expr)} :
    collectFields fields = .ok fs ↔ fields = fs.map fun f => (f.1, .ok f.2) := by
  induction fields generalizing fs with
  | nil =>
    rw [collectFields, Except.ok.injEq, eq_comm (a := []), eq_comm (a := []), List.map_eq_nil_iff]
  | cons f fields ih =>
    obtain ⟨k, r⟩ := f
    rw [collectFields]
    simp only [bind_eq_ok_iff, pure_eq_ok_iff, ih]
    constructor
    · rintro ⟨e, rfl, rest, rfl, rfl⟩
      rfl
    · intro h
      cases fs with
      | nil => cases h
      | cons f rest =>
        obtain ⟨hf, hfields⟩ := List.cons.inj h
        obtain ⟨rfl, rfl⟩ := Prod.mk.inj hf
        exact ⟨f.2, rfl, rest, hfields, rfl⟩

/-! ## Nodes of operators and functions -/

section Node

variable (body : Json) (fields : ReadFields) (read : List (Except Error Expr))

theorem ofEntry_binary (op : BinaryOp) :
    ofEntry op.name body fields read = (do
      let left ← child fields op.name "left"
      let right ← child fields op.name "right"
      return .binary op left right) := by
  cases op <;> rfl

theorem ofEntry_attr (op : AttrOp) :
    ofEntry op.name body fields read = (do
      let left ← child fields op.name "left"
      let name ← childText body op.name "attr"
      return .attr op left name) := by
  cases op <;> rfl

theorem ofEntry_call (f : ExtensionFn) :
    ofEntry f.name body fields read = (childItems body read f.name).map (ofCall f) := by
  cases f <;> rfl

end Node

/-! ## Reading what was written -/

mutual

theorem ofJson_toJson_of_canonical : ∀ e : Expr, e.Canonical → ofJson e.toJson = .ok e
  | .value l, h => by
    cases h with
    | value hl =>
      have hread : ofJson (tagged "Value" l.toJson) = .ok (.value l) := by
        change (Literal.ofJson l.toJson).map value = _
        rw [Literal.ofJson_toJson l hl]
        rfl
      cases l with
      | decimal s => rfl
      | ip s => rfl
      | _ => exact hread
  | .var v, _ => by cases v <;> rfl
  | .not a, h => by
    cases h with
    | not ha =>
      simp only [toJson, tagged, ofJson, fieldsOf, readFields, ofJson_toJson_of_canonical a ha]
      rfl
  | .neg a, h => by
    cases h with
    | neg ha =>
      simp only [toJson, tagged, ofJson, fieldsOf, readFields, ofJson_toJson_of_canonical a ha]
      rfl
  | .binary op a b, h => by
    cases h with
    | binary ha hb =>
      simp only [toJson, tagged, ofJson, fieldsOf, readFields, ofJson_toJson_of_canonical a ha,
        ofJson_toJson_of_canonical b hb, ofEntry_binary]
      rfl
  | .attr op a name, h => by
    cases h with
    | attr ha =>
      simp only [toJson, tagged, ofJson, fieldsOf, readFields, ofJson_toJson_of_canonical a ha,
        ofEntry_attr]
      rfl
  | .is a type, h => by
    cases h with
    | is ha =>
      simp only [toJson, tagged, ofJson, fieldsOf, readFields, ofJson_toJson_of_canonical a ha]
      rfl
  | .isIn a type e, h => by
    cases h with
    | isIn ha he =>
      simp only [toJson, tagged, ofJson, fieldsOf, readFields, ofJson_toJson_of_canonical a ha,
        ofJson_toJson_of_canonical e he]
      rfl
  | .like a pattern, h => by
    cases h with
    | like ha =>
      simp only [toJson, tagged, ofJson, fieldsOf, readFields, ofJson_toJson_of_canonical a ha]
      change ((pattern.map PatternElem.toJson).mapM PatternElem.ofJson >>= fun p =>
        pure (like a p)) = _
      rw [PatternElem.mapM_ofJson_toJson]
      rfl
  | .ite c a b, h => by
    cases h with
    | ite hc ha hb =>
      simp only [toJson, tagged, ofJson, fieldsOf, readFields, ofJson_toJson_of_canonical c hc,
        ofJson_toJson_of_canonical a ha, ofJson_toJson_of_canonical b hb]
      rfl
  | .set items, h => by
    cases h with
    | set hitems =>
      simp only [toJson, tagged, ofJson, itemsOf, readItems_itemsToJson items hitems]
      change (collect (items.map .ok)).map set = _
      rw [collect_eq_ok_iff.mpr rfl]
      rfl
  | .record fields, h => by
    cases h with
    | record hascending hfields =>
      simp only [toJson, tagged, ofJson, fieldsOf, readFields_fieldsToJson fields hfields]
      change (collectFields (fields.map fun f => (f.1, .ok f.2))).map
        (fun fs => record (Fields.ofList fs)) = _
      rw [collectFields_eq_ok_iff.mpr rfl]
      change Except.ok (record (Fields.ofList fields)) = _
      rw [Fields.ofList_eq_self hascending]
  | .call f args, h => by
    cases h with
    | call hargs hcall =>
      simp only [toJson, tagged, ofJson, itemsOf, readItems_itemsToJson args hargs, ofEntry_call]
      change (collect (args.map .ok)).map (ofCall f) = _
      rw [collect_eq_ok_iff.mpr rfl]
      change Except.ok (ofCall f args) = _
      rw [ofCall_of_not_makesConstant hcall]

theorem readItems_itemsToJson : ∀ items : List Expr, (∀ e ∈ items, e.Canonical) →
    readItems (itemsToJson items) = items.map .ok
  | [], _ => rfl
  | e :: rest, h => by
    simp only [itemsToJson, readItems, ofJson_toJson_of_canonical e (h e List.mem_cons_self),
      readItems_itemsToJson rest fun d hd => h d (List.mem_cons_of_mem e hd), List.map_cons]

theorem readFields_fieldsToJson : ∀ fields : List (String × Expr), (∀ f ∈ fields, f.2.Canonical) →
    readFields (fieldsToJson fields) = fields.map fun f => (f.1, .ok f.2)
  | [], _ => rfl
  | (k, e) :: rest, h => by
    simp only [fieldsToJson, readFields, ofJson_toJson_of_canonical e (h (k, e) List.mem_cons_self),
      readFields_fieldsToJson rest fun f hf => h f (List.mem_cons_of_mem (k, e) hf), List.map_cons]

end

/-! ## What was read -/

theorem canonical_ofCall {f : ExtensionFn} {args : List Expr} (h : ∀ a ∈ args, a.Canonical) :
    (ofCall f args).Canonical := by
  by_cases hcall : makesConstant f args
  · obtain ⟨rfl | rfl, s, rfl⟩ := hcall
    · exact .value ⟨rfl, rfl⟩
    · exact .value ⟨rfl, rfl⟩
  · rw [ofCall_of_not_makesConstant hcall]
    exact .call h hcall

section Read

variable {key : String} {body : Json} {fields : ReadFields} {read : List (Except Error Expr)}
  {e : Expr}

theorem canonical_child (hfields : ∀ f ∈ fields, ∀ e, f.2 = .ok e → e.Canonical) {op name : String}
    (h : child fields op name = .ok e) : e.Canonical := by
  unfold child at h
  split at h
  · rename_i r hlookup
    exact hfields (name, r) (Fields.mem_of_lookup_eq_some hlookup) e h
  · cases h

theorem canonical_collect (hread : ∀ r ∈ read, ∀ e, r = .ok e → e.Canonical) {es : List Expr}
    (h : collect read = .ok es) : ∀ e ∈ es, e.Canonical := by
  rw [collect_eq_ok_iff] at h
  subst h
  exact fun e he => hread (.ok e) (List.mem_map_of_mem he) e rfl

theorem canonical_childItems (hread : ∀ r ∈ read, ∀ e, r = .ok e → e.Canonical) {op : String}
    {es : List Expr} (h : childItems body read op = .ok es) : ∀ e ∈ es, e.Canonical := by
  unfold childItems at h
  split at h
  · exact canonical_collect hread h
  · cases h

theorem canonical_ofOperator (hfields : ∀ f ∈ fields, ∀ e, f.2 = .ok e → e.Canonical)
    (hread : ∀ r ∈ read, ∀ e, r = .ok e → e.Canonical)
    (h : ofOperator key body fields read = .ok e) : e.Canonical := by
  unfold ofOperator at h
  split at h
  · simp only [bind_eq_ok_iff, pure_eq_ok_iff] at h
    obtain ⟨left, hleft, right, hright, rfl⟩ := h
    exact .binary (canonical_child hfields hleft) (canonical_child hfields hright)
  · simp only [bind_eq_ok_iff, pure_eq_ok_iff] at h
    obtain ⟨left, hleft, name, -, rfl⟩ := h
    exact .attr (canonical_child hfields hleft)
  · obtain ⟨args, hargs, rfl⟩ := map_eq_ok_iff.mp h
    exact canonical_ofCall (canonical_childItems hread hargs)
  · cases h

/-- A node is canonical if the expressions in it are. -/
theorem canonical_ofEntry (hfields : ∀ f ∈ fields, ∀ e, f.2 = .ok e → e.Canonical)
    (hread : ∀ r ∈ read, ∀ e, r = .ok e → e.Canonical)
    (h : ofEntry key body fields read = .ok e) : e.Canonical := by
  unfold ofEntry at h
  split at h
  · obtain ⟨l, hl, rfl⟩ := map_eq_ok_iff.mp h
    exact .value (Literal.canonical_of_ofJson body l hl)
  · split at h
    · cases h
      exact .var
    · cases h
  · obtain ⟨a, ha, rfl⟩ := map_eq_ok_iff.mp h
    exact .not (canonical_child hfields ha)
  · obtain ⟨a, ha, rfl⟩ := map_eq_ok_iff.mp h
    exact .neg (canonical_child hfields ha)
  · simp only [bind_eq_ok_iff] at h
    obtain ⟨left, hleft, type, -, h⟩ := h
    split at h
    · cases h
      exact .is (canonical_child hfields hleft)
    · rename_i r hlookup
      simp only [bind_eq_ok_iff, pure_eq_ok_iff] at h
      obtain ⟨entity, hentity, rfl⟩ := h
      exact .isIn (canonical_child hfields hleft)
        (hfields _ (Fields.mem_of_lookup_eq_some hlookup) entity hentity)
  · simp only [bind_eq_ok_iff] at h
    obtain ⟨left, hleft, h⟩ := h
    split at h
    · cases h
    · simp only [bind_eq_ok_iff, pure_eq_ok_iff] at h
      obtain ⟨pattern, -, rfl⟩ := h
      exact .like (canonical_child hfields hleft)
  · simp only [bind_eq_ok_iff, pure_eq_ok_iff] at h
    obtain ⟨c, hc, a, ha, b, hb, rfl⟩ := h
    exact .ite (canonical_child hfields hc) (canonical_child hfields ha)
      (canonical_child hfields hb)
  · obtain ⟨items, hitems, rfl⟩ := map_eq_ok_iff.mp h
    exact .set (canonical_childItems hread hitems)
  · split at h
    · obtain ⟨fs, hfs, rfl⟩ := map_eq_ok_iff.mp h
      rw [collectFields_eq_ok_iff] at hfs
      subst hfs
      refine .record (Fields.ascending_ofList fs) fun f hf => ?_
      exact hfields _ (List.mem_map_of_mem (Fields.mem_of_mem_ofList hf)) f.2 rfl
    · cases h
  · exact canonical_ofOperator hfields hread h

end Read

mutual

/-- An expression that was read is canonical. -/
theorem canonical_of_ofJson : ∀ (j : Json) (e : Expr), ofJson j = .ok e → e.Canonical
  | .object [(key, body)], e, h => by
    unfold ofJson at h
    exact canonical_ofEntry (canonical_fieldsOf body) (canonical_itemsOf body) h
  | .object [], e, h => by cases h
  | .object (_ :: _ :: _), e, h => by cases h
  | .null, e, h => by cases h
  | .bool _, e, h => by cases h
  | .number _, e, h => by cases h
  | .string _, e, h => by cases h
  | .array _, e, h => by cases h

theorem canonical_fieldsOf : ∀ (j : Json), ∀ f ∈ fieldsOf j, ∀ e, f.2 = .ok e → e.Canonical
  | .object fields => canonical_readFields fields
  | .null => by simp [fieldsOf]
  | .bool _ => by simp [fieldsOf]
  | .number _ => by simp [fieldsOf]
  | .string _ => by simp [fieldsOf]
  | .array _ => by simp [fieldsOf]

theorem canonical_itemsOf : ∀ (j : Json), ∀ r ∈ itemsOf j, ∀ e, r = .ok e → e.Canonical
  | .array items => canonical_readItems items
  | .null => by simp [itemsOf]
  | .bool _ => by simp [itemsOf]
  | .number _ => by simp [itemsOf]
  | .string _ => by simp [itemsOf]
  | .object _ => by simp [itemsOf]

theorem canonical_readFields : ∀ (fields : List (String × Json)), ∀ f ∈ readFields fields,
    ∀ e, f.2 = .ok e → e.Canonical
  | [] => by simp [readFields]
  | (k, j) :: rest => by
    unfold readFields
    rw [List.forall_mem_cons]
    exact ⟨canonical_of_ofJson j, canonical_readFields rest⟩

theorem canonical_readItems : ∀ (js : List Json), ∀ r ∈ readItems js,
    ∀ e, r = .ok e → e.Canonical
  | [] => by simp [readItems]
  | j :: rest => by
    unfold readItems
    rw [List.forall_mem_cons]
    exact ⟨canonical_of_ofJson j, canonical_readItems rest⟩

end

/-! ## Both directions -/

/-- **Round trip.** An expression that was read is read back from its document. An expression
    without reserved keys is read back with constants in place of constructors, and that expression
    has the same document. -/
theorem ofJson_round_trip :
    (∀ (j : Json) (e : Expr), ofJson j = .ok e → ofJson e.toJson = .ok e) ∧
    ∀ e : Expr, e.sorted → e.unreserved →
      ofJson e.toJson = .ok e.typed ∧ e.typed.toJson = e.toJson := by
  constructor
  · exact fun j e h => ofJson_toJson_of_canonical e (canonical_of_ofJson j e h)
  · intro e hsorted hunreserved
    refine ⟨?_, toJson_typed e⟩
    rw [← toJson_typed]
    exact ofJson_toJson_of_canonical e.typed (canonical_typed e hsorted hunreserved)

/-- A decimal number that is made from its text, compared with a field of a record. -/
theorem ofJson_round_trip_decimal :
    let e : Expr := .binary .less (.call .decimal [.value (.string "1.0")])
      (.attr .access (.value (.record [("limit", .long 1)])) "limit")
    let typed : Expr := .binary .less (.value (.decimal "1.0"))
      (.attr .access (.value (.record [("limit", .long 1)])) "limit")
    ofJson e.toJson = .ok typed ∧ typed.toJson = e.toJson ∧ ofJson typed.toJson = .ok typed := by
  intro e typed
  obtain ⟨hread, hsame⟩ := ofJson_round_trip.2 e rfl rfl
  exact ⟨hread, hsame, ofJson_round_trip.1 e.toJson typed hread⟩

end Expr

end AccessPolicy.Cedar
