import AccessPolicy.Proofs.Cedar.Expr.Canonical
import AccessPolicy.Proofs.Json.WellFormed

/-!
# Documents of expressions

The document of a canonical expression holds no key twice, and its numbers are integers that fit a
word. So it is read back from its text.

* `Literal.plain_toJson`, `Expr.plain_toJson`: constants and expressions.
-/

namespace AccessPolicy.Cedar

open Json (Plain)

theorem plain_tagged {key : String} {body : Json} (h : body.Plain) : (tagged key body).Plain :=
  Json.plain_object (by simp) (by simpa using h)

theorem EntityUid.plain_toJson (e : EntityUid) : e.toJson.Plain :=
  Json.plain_object (by simp) (by simp)

namespace Literal

theorem plain_extension (f : ExtensionFn) (text : String) : (extension f text).Plain :=
  plain_tagged (Json.plain_object (by simp) (by simp))

theorem isWord_toInt (n : Int64) : (Json.Number.int n.toInt).IsWord := by
  have hmin : -2 ^ 63 ≤ n.toInt := n.le_toInt
  have hmax : n.toInt < 2 ^ 63 := n.toInt_lt
  have hlow : (Decimal.pow2 63 : Int) = 2 ^ 63 := by decide
  have hhigh : (Decimal.pow2 64 : Int) = 2 ^ 64 := by decide
  constructor
  · rw [hlow]
    exact hmin
  · rw [hhigh]
    omega

mutual

theorem plain_toJson : ∀ l : Literal, l.sorted → l.toJson.Plain
  | .bool _, _ => .bool
  | .long n, _ => .number (isWord_toInt n)
  | .string _, _ => .string
  | .entity e, _ => plain_tagged e.plain_toJson
  | .set items, h => by
    unfold toJson
    exact Json.plain_array (plain_itemsToJson items h)
  | .record fields, h => by
    obtain ⟨hascending, hfields⟩ := Bool.and_eq_true_iff.mp h
    unfold toJson
    refine Json.plain_object ?_ (plain_fieldsToJson fields hfields)
    rw [keys_fieldsToJson]
    exact Fields.nodup_of_ascending hascending
  | .decimal s, _ => plain_extension .decimal s
  | .ip s, _ => plain_extension .ip s

theorem plain_itemsToJson : ∀ items : List Literal, sortedItems items →
    ∀ j ∈ itemsToJson items, j.Plain
  | [], _ => by simp [itemsToJson]
  | l :: rest, h => by
    obtain ⟨hl, hrest⟩ := Bool.and_eq_true_iff.mp h
    unfold itemsToJson
    rw [List.forall_mem_cons]
    exact ⟨plain_toJson l hl, plain_itemsToJson rest hrest⟩

theorem plain_fieldsToJson : ∀ fields : List (String × Literal), sortedFields fields →
    ∀ f ∈ fieldsToJson fields, f.2.Plain
  | [], _ => by simp [fieldsToJson]
  | (k, l) :: rest, h => by
    obtain ⟨hl, hrest⟩ := Bool.and_eq_true_iff.mp h
    unfold fieldsToJson
    rw [List.forall_mem_cons]
    exact ⟨plain_toJson l hl, plain_fieldsToJson rest hrest⟩

end

end Literal

theorem PatternElem.plain_toJson (e : PatternElem) : e.toJson.Plain := by
  cases e with
  | literal s => exact plain_tagged (Json.plain_string s)
  | wildcard => exact Json.plain_string _

namespace Expr

theorem itemsToJson_eq_map (items : List Expr) : itemsToJson items = items.map toJson := by
  induction items with
  | nil => rfl
  | cons e items ih => rw [itemsToJson, ih, List.map_cons]

theorem fieldsToJson_eq_map (fields : List (String × Expr)) :
    fieldsToJson fields = fields.map fun f => (f.1, f.2.toJson) := by
  induction fields with
  | nil => rfl
  | cons f fields ih =>
    obtain ⟨k, e⟩ := f
    rw [fieldsToJson, ih, List.map_cons]

theorem plain_itemsToJson {items : List Expr} (h : ∀ e ∈ items, e.toJson.Plain) :
    ∀ j ∈ itemsToJson items, j.Plain := by
  rw [itemsToJson_eq_map]
  exact List.forall_mem_map.mpr h

theorem plain_constructed (f : ExtensionFn) (text : String) : (constructed f text).Plain :=
  plain_tagged (Json.plain_array (by simp [plain_tagged]))

theorem plain_toJson {e : Expr} (h : e.Canonical) : e.toJson.Plain := by
  induction h with
  | @value l hl =>
    cases l with
    | decimal s => exact plain_constructed .decimal s
    | ip s => exact plain_constructed .ip s
    | _ => exact plain_tagged (Literal.plain_toJson _ hl.sorted)
  | var => exact plain_tagged (Json.plain_string _)
  | not _ ih => exact plain_tagged (Json.plain_object (by simp) (by simp [ih]))
  | neg _ ih => exact plain_tagged (Json.plain_object (by simp) (by simp [ih]))
  | binary _ _ iha ihb => exact plain_tagged (Json.plain_object (by simp) (by simp [iha, ihb]))
  | attr _ ih => exact plain_tagged (Json.plain_object (by simp) (by simp [ih]))
  | is _ ih => exact plain_tagged (Json.plain_object (by simp) (by simp [ih]))
  | isIn _ _ iha ihe => exact plain_tagged (Json.plain_object (by simp) (by simp [iha, ihe]))
  | @like a pattern _ ih =>
    have hpattern : (Json.array (pattern.map PatternElem.toJson)).Plain :=
      Json.plain_array (List.forall_mem_map.mpr fun e _ => e.plain_toJson)
    exact plain_tagged (Json.plain_object (by simp) (by simp [ih, hpattern]))
  | ite _ _ _ ihc iha ihb =>
    exact plain_tagged (Json.plain_object (by simp) (by simp [ihc, iha, ihb]))
  | set _ ih =>
    unfold toJson
    exact plain_tagged (Json.plain_array (plain_itemsToJson ih))
  | record hascending _ ih =>
    unfold toJson
    rw [fieldsToJson_eq_map]
    refine plain_tagged (Json.plain_object ?_ (List.forall_mem_map.mpr ih))
    rw [List.map_map]
    exact Fields.nodup_of_ascending hascending
  | call _ _ ih =>
    unfold toJson
    exact plain_tagged (Json.plain_array (plain_itemsToJson ih))

end Expr

end AccessPolicy.Cedar
