import AccessPolicy.Binding.Document
import AccessPolicy.Proofs.Json.Record
import AccessPolicy.Proofs.Json.RoundTrip

/-!
# Binding documents written and loaded

The keys of a document say which of three shapes it has. Each shape is written so that it is taken
for itself, so lists of assignments, single assignments and lone bindings are loaded from their
texts. Conversely only documents of these shapes are loaded, and one bad item spoils an array.

* `Binding.holds`, `Assignment.holds`: the documents of bindings and assignments hold them.
* `of?_eq_assignment_iff`, `of?_eq_binding_iff`: the shape of a document by its keys.
* `Denotes`: the assignments that a document stands for.
* `listOfJson_eq_ok_iff`: which documents are read, and as what.
* `ofItems_eq_error_iff`: the item that spoils an array.
* `load_shapes`: texts of all shapes, and what is loaded at all.
-/

namespace AccessPolicy

open Json Json.Decode.Record Outcome

/-! ## Written documents -/

theorem Binding.holds (b : Binding) : Holds Binding.ofJson 2 b.toJson b := by
  have hrole := fills_field (s := (none, [])) Binding.record "role" (fun role => (some role, []))
    rfl (holds_string 1 b.role)
  have hmembers := fills_field (s := (some b.role, [])) Binding.record "members"
    (fun members => (some b.role, members)) rfl (holds_list fun m (_ : m ∈ b.members) =>
      holds_string 0 m)
  exact (hrole.append hmembers).holds (by decide) rfl

theorem Assignment.holds (a : Assignment) : Holds Assignment.ofJson 4 a.toJson a := by
  have hresource := fills_field (s := {}) Assignment.record "resourceId"
    (fun resourceId => { resourceId }) rfl (holds_string 3 a.resourceId)
  have hbindings := fills_field (s := { resourceId := a.resourceId }) Assignment.record "bindings"
    (fun bindings => { a with bindings }) rfl (holds_list fun b (_ : b ∈ a.bindings) => b.holds)
  exact (hresource.append hbindings).holds (by decide) rfl

/-! ## Shapes -/

/-- The document is an object with a key. -/
def Json.HasKey (j : Json) (key : String) : Prop :=
  ∃ fields, j = .object fields ∧ key ∈ fields.map Prod.fst

theorem Json.hasKey_object_iff {fields : List (String × Json)} {key : String} :
    (Json.object fields).HasKey key ↔ (fields.lookup key).isSome := by
  rw [Option.isSome_iff_ne_none, ne_eq, Fields.lookup_eq_none_iff, not_not]
  constructor
  · rintro ⟨_, heq, hkey⟩
    rwa [Json.object.inj heq]
  · exact fun hkey => ⟨fields, rfl, hkey⟩

namespace BindingShape

variable {j : Json}

theorem of?_eq_assignment_iff : of? j = some .assignment ↔ j.HasKey "resourceId" := by
  cases j with
  | object fields =>
    rw [hasKey_object_iff, of?]
    split_ifs with hresource <;> simp [hresource]
  | _ => simp [of?, HasKey]

theorem of?_eq_binding_iff :
    of? j = some .binding ↔ j.HasKey "role" ∧ ¬ j.HasKey "resourceId" := by
  cases j with
  | object fields =>
    rw [hasKey_object_iff, hasKey_object_iff, of?]
    split_ifs with hresource hrole
    · simp [hresource]
    · simp [hresource, hrole]
    · simp [hrole]
  | _ => simp [of?, HasKey]

end BindingShape

namespace Assignment

open BindingShape

/-! ## Documents that are read -/

/-- The assignments that a document stands for. The items of an array are assignments, an object
    with a resource is one assignment, and one with a role and without a resource is a binding that
    stands alone. -/
inductive Denotes : Json → List Assignment → Prop
  | list {items : List Json} {as : List Assignment} :
    List.Forall₂ (fun item a => item.HasKey "resourceId" ∧ ofJson item = .ok a) items as →
    Denotes (.array items) as
  | assignment {j : Json} {a : Assignment} :
    j.HasKey "resourceId" → ofJson j = .ok a → Denotes j [a]
  | binding {j : Json} {b : Binding} :
    j.HasKey "role" → ¬ j.HasKey "resourceId" → Binding.ofJson j = .ok b →
    Denotes j [{ resourceId := "", bindings := [b] }]

variable {j : Json} {as : List Assignment} {e : Error}

theorem decoded_eq_ok_iff {α : Type} {what : String} {x : Except Mismatch α} {a : α} :
    decoded what x = .ok a ↔ x = .ok a := by
  cases x <;> simp [decoded]

theorem ofItem_eq_ok_iff {index : Nat} {item : Json} {a : Assignment} :
    ofItem index item = .ok a ↔ item.HasKey "resourceId" ∧ ofJson item = .ok a := by
  rw [← of?_eq_assignment_iff]
  unfold ofItem
  split_ifs with hshape
  · rw [decoded_eq_ok_iff, and_iff_right hshape]
  · simp [hshape]

theorem ofItems_eq_ok_iff {index : Nat} {items : List Json} :
    ofItems index items = .ok as ↔
      List.Forall₂ (fun item a => item.HasKey "resourceId" ∧ ofJson item = .ok a) items as := by
  induction items generalizing index as with
  | nil =>
    rw [List.forall₂_nil_left_iff]
    simp [ofItems, eq_comm]
  | cons item items ih =>
    rw [ofItems, List.forall₂_cons_left_iff]
    simp only [bind_eq_ok_iff, pure_eq_ok_iff, ofItem_eq_ok_iff, ih]
    constructor
    · rintro ⟨a, ha, rest, hrest, rfl⟩
      exact ⟨a, rest, ha, hrest, rfl⟩
    · rintro ⟨a, rest, ha, hrest, rfl⟩
      exact ⟨a, ha, rest, hrest, rfl⟩

theorem listOfJson_eq_ok_iff : listOfJson j = .ok as ↔ Denotes j as := by
  constructor
  · intro h
    unfold listOfJson at h
    split at h
    · rename_i hshape
      obtain ⟨b, hb, h⟩ := bind_eq_ok_iff.mp h
      obtain ⟨hrole, hresource⟩ := of?_eq_binding_iff.mp hshape
      obtain rfl := pure_eq_ok_iff.mp h
      exact .binding hrole hresource (decoded_eq_ok_iff.mp hb)
    · rename_i hshape
      obtain ⟨a, ha, h⟩ := bind_eq_ok_iff.mp h
      obtain rfl := pure_eq_ok_iff.mp h
      exact .assignment (of?_eq_assignment_iff.mp hshape) (decoded_eq_ok_iff.mp ha)
    · exact .list (ofItems_eq_ok_iff.mp h)
    · cases h
  · intro h
    cases h with
    | list hitems => exact ofItems_eq_ok_iff.mpr hitems
    | assignment hresource ha =>
      unfold listOfJson
      rw [of?_eq_assignment_iff.mpr hresource]
      exact bind_eq_ok_iff.mpr ⟨_, decoded_eq_ok_iff.mpr ha, rfl⟩
    | binding hrole hresource hb =>
      unfold listOfJson
      rw [of?_eq_binding_iff.mpr ⟨hrole, hresource⟩]
      exact bind_eq_ok_iff.mpr ⟨_, decoded_eq_ok_iff.mpr hb, rfl⟩

theorem load_eq_ok_iff {bytes : List UInt8} :
    load bytes = .ok as ↔ ∃ j, readBytes bytes = some j ∧ Denotes j as := by
  unfold load
  cases readBytes bytes with
  | none => simp
  | some j => simp [listOfJson_eq_ok_iff]

/-! ## Documents that are not read -/

/-- An array is spoiled by its first item that is no assignment. -/
theorem ofItems_eq_error_iff {index : Nat} {items : List Json} :
    ofItems index items = .error e ↔
      ∃ before item after as, items = before ++ item :: after ∧ ofItems index before = .ok as ∧
        ofItem (index + before.length) item = .error e := by
  induction items generalizing index with
  | nil => simp [ofItems]
  | cons item items ih =>
    rw [ofItems, bind_eq_error_iff]
    constructor
    · rintro (hitem | ⟨a, ha, h⟩)
      · exact ⟨[], item, items, [], rfl, rfl, hitem⟩
      · rcases bind_eq_error_iff.mp h with h | ⟨_, _, h⟩
        · obtain ⟨before, bad, after, as, rfl, has, hbad⟩ := ih.mp h
          refine ⟨item :: before, bad, after, a :: as, rfl, ?_, ?_⟩
          · rw [ofItems, ha, has]
            rfl
          · rw [List.length_cons, Nat.add_comm before.length, ← Nat.add_assoc]
            exact hbad
        · cases h
    · rintro ⟨_ | ⟨first, before⟩, bad, after, as, hsplit, has, hbad⟩
      · obtain ⟨rfl, rfl⟩ := List.cons.inj hsplit
        exact Or.inl hbad
      · obtain ⟨rfl, rfl⟩ := List.cons.inj hsplit
        rw [ofItems] at has
        obtain ⟨a, ha, has⟩ := bind_eq_ok_iff.mp has
        obtain ⟨as', has', -⟩ := bind_eq_ok_iff.mp has
        rw [List.length_cons, Nat.add_comm before.length, ← Nat.add_assoc] at hbad
        have hrest := ih.mpr ⟨before, bad, after, as', rfl, has', hbad⟩
        exact Or.inr ⟨a, ha, bind_eq_error_iff.mpr (Or.inl hrest)⟩

theorem failsWith_decoded {α : Type} (what : String) (x : Except Mismatch α) :
    FailsWith [.parse] (decoded what x) := by
  cases x with
  | ok a => exact .ok
  | error m => exact .error List.mem_cons_self

theorem failsWith_ofItem (index : Nat) (item : Json) : FailsWith [.parse] (ofItem index item) := by
  unfold ofItem
  split_ifs
  · exact failsWith_decoded _ _
  · exact .error List.mem_cons_self

theorem failsWith_ofItems (index : Nat) (items : List Json) :
    FailsWith [.parse] (ofItems index items) := by
  induction items generalizing index with
  | nil => exact .ok
  | cons item items ih =>
    rw [ofItems]
    exact (failsWith_ofItem index item).bind fun _ => (ih (index + 1)).bind fun _ => .ok

theorem failsWith_listOfJson (j : Json) : FailsWith [.parse] (listOfJson j) := by
  unfold listOfJson
  split
  · exact (failsWith_decoded _ _).bind fun _ => .ok
  · exact (failsWith_decoded _ _).bind fun _ => .ok
  · exact failsWith_ofItems 0 _
  · exact .error List.mem_cons_self

theorem failsWith_load (bytes : List UInt8) : FailsWith [.parse] (load bytes) := by
  unfold load
  split
  · exact .error List.mem_cons_self
  · exact failsWith_listOfJson _

/-! ## Texts -/

/-- What a document denotes is loaded from its texts, as long as it has few levels. -/
theorem load_written {write : Json → String} (hwrite : write ∈ [compact, pretty]) (hplain : j.Plain)
    (hdepth : j.depth ≤ maxDepth) (h : Denotes j as) : load (utf8 (write j)) = .ok as := by
  refine load_eq_ok_iff.mpr ⟨j, ?_, h⟩
  rw [readBytes_written hwrite hplain, if_pos hdepth]

theorem hasKey_toJson (a : Assignment) : a.toJson.HasKey "resourceId" :=
  ⟨_, rfl, List.mem_cons_self⟩

/-- **Binding documents.** A list of assignments, a single assignment and a lone binding are loaded
    from their texts, the binding as an assignment to no resource. Bytes are loaded exactly if they
    hold a document of one of these shapes, and otherwise the whole document is refused. An array
    is refused for its first item that is no assignment. -/
theorem load_shapes :
    (∀ write ∈ [compact, pretty],
      (∀ as : List Assignment, load (utf8 (write (listToJson as))) = .ok as) ∧
      (∀ a : Assignment, load (utf8 (write a.toJson)) = .ok [a]) ∧
      ∀ b : Binding, load (utf8 (write b.toJson)) = .ok [{ resourceId := "", bindings := [b] }]) ∧
    (∀ bytes as, load bytes = .ok as ↔ ∃ j, readBytes bytes = some j ∧ Denotes j as) ∧
    (∀ bytes e, load bytes = .error e → e.kind = .parse) ∧
    ∀ bytes items e, readBytes bytes = some (.array items) →
      (load bytes = .error e ↔ ∃ before item after as, items = before ++ item :: after ∧
        Denotes (.array before) as ∧ ofItem before.length item = .error e) := by
  refine ⟨fun write hwrite => ⟨fun as => ?_, fun a => ?_, fun b => ?_⟩,
    fun bytes as => load_eq_ok_iff, ?_, ?_⟩
  · have hlist := holds_list fun a (_ : a ∈ as) => a.holds
    refine load_written hwrite hlist.plain (hlist.depth_le.trans (by decide)) (.list ?_)
    rw [List.forall₂_map_left_iff, List.forall₂_same]
    exact fun a _ => ⟨a.hasKey_toJson, a.holds.read_eq⟩
  · exact load_written hwrite a.holds.plain (a.holds.depth_le.trans (by decide))
      (.assignment a.hasKey_toJson a.holds.read_eq)
  · have hrole : b.toJson.HasKey "role" := ⟨_, rfl, List.mem_cons_self⟩
    have hresource : ¬ b.toJson.HasKey "resourceId" := by
      rw [Binding.toJson, hasKey_object_iff]
      simp [List.lookup_cons]
    exact load_written hwrite b.holds.plain (b.holds.depth_le.trans (by decide))
      (.binding hrole hresource b.holds.read_eq)
  · intro bytes e h
    exact List.mem_singleton.mp (failsWith_load bytes e h)
  · intro bytes items e hread
    have hload : load bytes = ofItems 0 items := by
      unfold load
      rw [hread]
      rfl
    have hbefore : ∀ before as, Denotes (.array before) as ↔ ofItems 0 before = .ok as :=
      fun before as => (listOfJson_eq_ok_iff (j := .array before)).symm
    simp only [hload, hbefore, ofItems_eq_error_iff, Nat.zero_add]

/-- Assignments without bindings or without a resource are loaded, too. A lone binding among
    assignments spoils the array. -/
theorem load_shapes_album :
    let as : List Assignment := [⟨"", []⟩, ⟨"album", [⟨"viewer", ["user:alice"]⟩]⟩]
    let items : List Json :=
      [(⟨"album", []⟩ : Assignment).toJson, (⟨"viewer", []⟩ : Binding).toJson]
    load (utf8 (compact (listToJson as))) = .ok as ∧
      load (utf8 (pretty (⟨"", []⟩ : Assignment).toJson)) = .ok [⟨"", []⟩] ∧
      load (utf8 (pretty (⟨"viewer", []⟩ : Binding).toJson)) = .ok [⟨"", [⟨"viewer", []⟩]⟩] ∧
      load (utf8 (pretty (.array items))) = .error (.parse
        "element #1 is not a bind assignment, found an object with keys [role, members]") := by
  intro as items
  obtain ⟨hwritten, hloaded, -, hspoiled⟩ := load_shapes
  have hpretty : pretty ∈ [compact, pretty] := List.mem_cons_of_mem _ List.mem_cons_self
  have hitems : readBytes (utf8 (pretty (.array items))) = some (.array items) := by
    have hplain : (Json.array items).Plain := plain_array (by
      simp [items, Assignment.holds _ |>.plain, Binding.holds _ |>.plain])
    rw [readBytes_written hpretty hplain, if_pos (by decide)]
  refine ⟨(hwritten compact List.mem_cons_self).1 as, (hwritten pretty hpretty).2.1 _,
    (hwritten pretty hpretty).2.2 _, ?_⟩
  have hbad : ofItem 1 items[1] = .error (.parse
      "element #1 is not a bind assignment, found an object with keys [role, members]") := by
    decide +kernel
  refine (hspoiled _ items _ hitems).mpr ⟨[items[0]], items[1], [], [⟨"album", []⟩], rfl, ?_, hbad⟩
  exact .list (.cons ⟨hasKey_toJson _, (Assignment.holds _).read_eq⟩ .nil)

end Assignment

end AccessPolicy
