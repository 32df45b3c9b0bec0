import AccessPolicy.Proofs.Cedar.Expr.RoundTrip

/-!
# Nodes within documents of expressions

The document of an expression is a tree of nodes: objects with one key, which names the kind or the
operator, and further nodes as operands, items, fields or arguments in its body. Reading visits all
of them, so a document that is read has no position at which something else stands.

* `nodeKeys`: the keys of nodes.
* `ChildOf`: the nodes in the body of a node.
* `NodeAt`: what stands at a position of a document.
* `Malformed`: what is no node.
* `exists_ofJson_of_nodeAt`: what stands at any position of a document that is read is read itself.
* `not_malformed_of_ofJson`: what is read is a node.
-/

namespace AccessPolicy.Cedar.Expr

open Outcome

/-! ## Nodes -/

/-- The keys of nodes: those of the kinds, of the operators and of the functions. -/
def nodeKeys : List String :=
  ["Value", "Var", "!", "neg", "is", "like", "if-then-else", "Set", "Record"]
    ++ BinaryOp.all.map BinaryOp.name ++ AttrOp.all.map AttrOp.name
    ++ ExtensionFn.all.map ExtensionFn.name

/-- The fields in which a node of a key has its operands. -/
def operandNames (key : String) : List String :=
  match key with
  | "!" => ["arg"]
  | "neg" => ["arg"]
  | "is" => ["left", "in"]
  | "like" => ["left"]
  | "if-then-else" => ["if", "then", "else"]
  | _ =>
    if (BinaryOp.ofName? key).isSome then ["left", "right"]
    else if (AttrOp.ofName? key).isSome then ["left"]
    else []

/-- The documents in the place of a node in the body of a node with a key. -/
inductive ChildOf : String → Json → Json → Prop where
  | operand {key name : String} {body j : Json} :
    name ∈ operandNames key → body.field? name = some j → ChildOf key body j
  | item {items : List Json} {j : Json} : j ∈ items → ChildOf "Set" (.array items) j
  | field {fields : List (String × Json)} {name : String} {j : Json} :
    (name, j) ∈ fields → ChildOf "Record" (.object fields) j
  | argument {f : ExtensionFn} {items : List Json} {j : Json} :
    j ∈ items → ChildOf f.name (.array items) j

/-- A document stands at a position for a node: it is the whole document, or it is in such a place
    within an object with one recognised key that stands at a position. -/
inductive NodeAt (root : Json) : Json → Prop where
  | root : NodeAt root root
  | child {key : String} {body j : Json} :
    key ∈ nodeKeys → NodeAt root (.object [(key, body)]) → ChildOf key body j → NodeAt root j

/-- A document that is no node: no object, an object without a key or with several keys, or one
    whose key is not recognised. -/
inductive Malformed : Json → Prop where
  | notObject {j : Json} : (∀ fields, j ≠ .object fields) → Malformed j
  | noKey : Malformed (.object [])
  | severalKeys {f g : String × Json} {rest : List (String × Json)} :
    Malformed (.object (f :: g :: rest))
  | unknownKey {key : String} {body : Json} : key ∉ nodeKeys → Malformed (.object [(key, body)])

/-! ## Reading the body of a node -/

theorem readItems_eq_map (items : List Json) : readItems items = items.map ofJson := by
  induction items with
  | nil => rfl
  | cons j items ih => rw [readItems, ih, List.map_cons]

theorem readFields_eq_map (fields : List (String × Json)) :
    readFields fields = fields.map fun f => (f.1, ofJson f.2) := by
  induction fields with
  | nil => rfl
  | cons f fields ih =>
    obtain ⟨k, j⟩ := f
    rw [readFields, ih, List.map_cons]

theorem lookup_fieldsOf {body j : Json} {name : String} (h : body.field? name = some j) :
    (fieldsOf body).lookup name = some (ofJson j) := by
  cases body with
  | object fields =>
    have hlookup : fields.lookup name = some j := h
    obtain ⟨before, after, rfl, hbefore⟩ := List.lookup_eq_some_iff.mp hlookup
    rw [fieldsOf, readFields_eq_map, List.lookup_eq_some_iff]
    refine ⟨before.map fun f => (f.1, ofJson f.2), after.map fun f => (f.1, ofJson f.2), ?_, ?_⟩
    · rw [List.map_append, List.map_cons]
    · exact List.forall_mem_map.mpr hbefore
  | _ => cases h

theorem child_fieldsOf {body j : Json} {op name : String} (h : body.field? name = some j) :
    child (fieldsOf body) op name = ofJson j := by
  unfold child
  rw [lookup_fieldsOf h]

theorem childItems_itemsOf_eq_ok_iff {items : List Json} {op : String} {es : List Expr} :
    childItems (.array items) (itemsOf (.array items)) op = .ok es ↔
      items.map ofJson = es.map .ok := by
  rw [childItems, itemsOf, readItems_eq_map, collect_eq_ok_iff]

/-- What stands among items that are read is read. -/
theorem exists_of_mem_items {items : List Json} {es : List Expr}
    (h : items.map ofJson = es.map .ok) {j : Json} (hj : j ∈ items) : ∃ e, ofJson j = .ok e := by
  have hmem : ofJson j ∈ es.map Except.ok := h ▸ List.mem_map_of_mem hj
  obtain ⟨e, -, he⟩ := List.mem_map.mp hmem
  exact ⟨e, he.symm⟩

theorem name_of_binaryOp {key : String} {op : BinaryOp} (h : BinaryOp.ofName? key = some op) :
    op.name = key := by
  simpa using List.find?_some h

theorem name_of_attrOp {key : String} {op : AttrOp} (h : AttrOp.ofName? key = some op) :
    op.name = key := by
  simpa using List.find?_some h

/-! ## Positions of documents that are read -/

section Child

variable {key name : String} {body j : Json} {e : Expr}

/-- The operands of a node that is read are read. -/
theorem exists_ofJson_of_operand (hname : name ∈ operandNames key)
    (hfield : body.field? name = some j)
    (h : ofEntry key body (fieldsOf body) (itemsOf body) = .ok e) : ∃ e', ofJson j = .ok e' := by
  unfold operandNames at hname
  split at hname
  · obtain rfl := List.mem_singleton.mp hname
    obtain ⟨a, ha, -⟩ := map_eq_ok_iff.mp h
    exact ⟨a, child_fieldsOf hfield ▸ ha⟩
  · obtain rfl := List.mem_singleton.mp hname
    obtain ⟨a, ha, -⟩ := map_eq_ok_iff.mp h
    exact ⟨a, child_fieldsOf hfield ▸ ha⟩
  · obtain ⟨left, hleft, h⟩ := bind_eq_ok_iff.mp h
    obtain ⟨type, -, h⟩ := bind_eq_ok_iff.mp h
    obtain rfl | rfl := List.mem_pair.mp hname
    · exact ⟨left, child_fieldsOf hfield ▸ hleft⟩
    · simp only [lookup_fieldsOf hfield] at h
      obtain ⟨entity, hentity, -⟩ := bind_eq_ok_iff.mp h
      exact ⟨entity, hentity⟩
  · obtain rfl := List.mem_singleton.mp hname
    obtain ⟨left, hleft, -⟩ := bind_eq_ok_iff.mp h
    exact ⟨left, child_fieldsOf hfield ▸ hleft⟩
  · obtain ⟨c, hc, h⟩ := bind_eq_ok_iff.mp h
    obtain ⟨a, ha, h⟩ := bind_eq_ok_iff.mp h
    obtain ⟨b, hb, -⟩ := bind_eq_ok_iff.mp h
    simp only [List.mem_cons, List.not_mem_nil, or_false] at hname
    obtain rfl | rfl | rfl := hname
    · exact ⟨c, child_fieldsOf hfield ▸ hc⟩
    · exact ⟨a, child_fieldsOf hfield ▸ ha⟩
    · exact ⟨b, child_fieldsOf hfield ▸ hb⟩
  · split_ifs at hname with hbinary hattr
    · obtain ⟨op, hop⟩ := Option.isSome_iff_exists.mp hbinary
      rw [← name_of_binaryOp hop, ofEntry_binary] at h
      obtain ⟨left, hleft, h⟩ := bind_eq_ok_iff.mp h
      obtain ⟨right, hright, -⟩ := bind_eq_ok_iff.mp h
      obtain rfl | rfl := List.mem_pair.mp hname
      · exact ⟨left, child_fieldsOf hfield ▸ hleft⟩
      · exact ⟨right, child_fieldsOf hfield ▸ hright⟩
    · obtain ⟨op, hop⟩ := Option.isSome_iff_exists.mp hattr
      rw [← name_of_attrOp hop, ofEntry_attr] at h
      obtain rfl := List.mem_singleton.mp hname
      obtain ⟨left, hleft, -⟩ := bind_eq_ok_iff.mp h
      exact ⟨left, child_fieldsOf hfield ▸ hleft⟩
    · cases hname

/-- The nodes in the body of a node that is read are read. -/
theorem exists_ofJson_of_childOf (hchild : ChildOf key body j)
    (h : ofJson (.object [(key, body)]) = .ok e) : ∃ e', ofJson j = .ok e' := by
  rw [ofJson] at h
  cases hchild with
  | operand hname hfield => exact exists_ofJson_of_operand hname hfield h
  | item hj =>
    obtain ⟨es, hes, -⟩ := map_eq_ok_iff.mp h
    exact exists_of_mem_items (childItems_itemsOf_eq_ok_iff.mp hes) hj
  | @field fields name _ hj =>
    obtain ⟨fs, hfs, -⟩ := map_eq_ok_iff.mp h
    rw [fieldsOf, readFields_eq_map, collectFields_eq_ok_iff] at hfs
    have hmem : (name, ofJson j) ∈ fs.map fun f => (f.1, Except.ok f.2) :=
      hfs ▸ List.mem_map_of_mem hj
    obtain ⟨f, -, hf⟩ := List.mem_map.mp hmem
    exact ⟨f.2, (Prod.mk.inj hf).2.symm⟩
  | argument hj =>
    rw [ofEntry_call] at h
    obtain ⟨es, hes, -⟩ := map_eq_ok_iff.mp h
    exact exists_of_mem_items (childItems_itemsOf_eq_ok_iff.mp hes) hj

end Child

/-- What stands at a position of a document that is read is read itself. -/
theorem exists_ofJson_of_nodeAt {root j : Json} {e : Expr} (hj : NodeAt root j)
    (h : ofJson root = .ok e) : ∃ e', ofJson j = .ok e' := by
  induction hj with
  | root => exact ⟨e, h⟩
  | child _ _ hchild ih =>
    obtain ⟨e', he'⟩ := ih
    exact exists_ofJson_of_childOf hchild he'

/-- A key that is not recognised makes no node. -/
theorem ofEntry_ne_ok {key : String} (hkey : key ∉ nodeKeys) (body : Json) (fields : ReadFields)
    (read : List (Except Error Expr)) (e : Expr) : ofEntry key body fields read ≠ .ok e := by
  simp only [nodeKeys, List.mem_append, not_or] at hkey
  obtain ⟨⟨⟨hkinds, hbinary⟩, hattr⟩, hcall⟩ := hkey
  have hnone : BinaryOp.ofName? key = none ∧ AttrOp.ofName? key = none ∧
      ExtensionFn.ofName? key = none := by
    simp only [BinaryOp.ofName?, AttrOp.ofName?, ExtensionFn.ofName?, List.find?_eq_none,
      decide_eq_true_eq]
    refine ⟨fun op hop hname => ?_, fun op hop hname => ?_, fun f hf hname => ?_⟩
    · exact hbinary (hname ▸ List.mem_map_of_mem hop)
    · exact hattr (hname ▸ List.mem_map_of_mem hop)
    · exact hcall (hname ▸ List.mem_map_of_mem hf)
  have hoperator : ofEntry key body fields read = ofOperator key body fields read := by
    simp only [List.mem_cons, List.not_mem_nil, or_false, not_or] at hkinds
    obtain ⟨hvalue, hvar, hnot, hneg, his, hlike, hite, hset, hrecord⟩ := hkinds
    rw [ofEntry] <;> assumption
  rw [hoperator, ofOperator, hnone.1, hnone.2.1, hnone.2.2]
  intro h
  cases h

/-- What is read is a node. -/
theorem not_malformed_of_ofJson {j : Json} {e : Expr} (h : ofJson j = .ok e) : ¬ Malformed j := by
  intro hj
  cases hj with
  | notObject hno =>
    cases j with
    | object fields => exact hno fields rfl
    | _ => cases h
  | noKey => cases h
  | severalKeys => cases h
  | unknownKey hkey =>
    rw [ofJson] at h
    exact ofEntry_ne_ok hkey _ _ _ e h

end AccessPolicy.Cedar.Expr
