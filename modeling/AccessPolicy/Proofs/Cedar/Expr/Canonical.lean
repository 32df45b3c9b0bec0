import AccessPolicy.Proofs.Cedar.Expr.Literal

/-!
# Canonical expressions

Two expressions can have the same document: a constructor with one text and the constant that it
makes. Reading gives the constant. So an expression that was read has no such constructor left, and
its constants are canonical.

* `Expr.typed`: an expression with every constructor with one text replaced by its constant.
* `Expr.Canonical`: the expressions that reading makes.
* `toJson_typed`, `canonical_typed`: an expression has the document of a canonical one.
-/

namespace AccessPolicy.Cedar.Expr

/-! ## Constants in place of constructors -/

mutual

/-- The expression with every constructor with one text replaced by the constant that it makes. -/
def typed : Expr → Expr
  | .value l => .value l
  | .var v => .var v
  | .not a => .not (typed a)
  | .neg a => .neg (typed a)
  | .binary op a b => .binary op (typed a) (typed b)
  | .attr op a name => .attr op (typed a) name
  | .is a type => .is (typed a) type
  | .isIn a type e => .isIn (typed a) type (typed e)
  | .like a pattern => .like (typed a) pattern
  | .ite c a b => .ite (typed c) (typed a) (typed b)
  | .set items => .set (typedItems items)
  | .record fields => .record (typedFields fields)
  | .call .decimal [.value (.string s)] => .value (.decimal s)
  | .call .ip [.value (.string s)] => .value (.ip s)
  | .call f args => .call f (typedItems args)

/-- The items with constants in place of constructors. -/
def typedItems : List Expr → List Expr
  | [] => []
  | e :: rest => typed e :: typedItems rest

/-- The fields with constants in place of constructors. -/
def typedFields : List (String × Expr) → List (String × Expr)
  | [] => []
  | (k, e) :: rest => (k, typed e) :: typedFields rest

end

mutual

/-- No record constant of an expression, at any depth, has a reserved key. -/
def unreserved : Expr → Bool
  | .value l => l.unreserved
  | .var _ => true
  | .not a => unreserved a
  | .neg a => unreserved a
  | .binary _ a b => unreserved a && unreserved b
  | .attr _ a _ => unreserved a
  | .is a _ => unreserved a
  | .isIn a _ b => unreserved a && unreserved b
  | .like a _ => unreserved a
  | .ite a b c => unreserved a && unreserved b && unreserved c
  | .set items => unreservedItems items
  | .record fields => unreservedFields fields
  | .call _ args => unreservedItems args

/-- No record constant of the items has a reserved key. -/
def unreservedItems : List Expr → Bool
  | [] => true
  | e :: rest => unreserved e && unreservedItems rest

/-- No record constant in the values of fields has a reserved key. -/
def unreservedFields : List (String × Expr) → Bool
  | [] => true
  | (_, e) :: rest => unreserved e && unreservedFields rest

end

/-- A call makes a constant: it is a constructor with one text. -/
def makesConstant (f : ExtensionFn) (args : List Expr) : Prop :=
  (f = .decimal ∨ f = .ip) ∧ ∃ s, args = [string s]

theorem ofCall_of_not_makesConstant {f : ExtensionFn} {args : List Expr}
    (h : ¬ makesConstant f args) : ofCall f args = .call f args := by
  unfold ofCall
  split
  · exact absurd ⟨Or.inl rfl, _, rfl⟩ h
  · exact absurd ⟨Or.inr rfl, _, rfl⟩ h
  · rfl

theorem typed_call {f : ExtensionFn} {args : List Expr} (h : ¬ makesConstant f args) :
    typed (.call f args) = .call f (typedItems args) := by
  rw [typed]
  · rintro s rfl rfl
    exact h ⟨Or.inl rfl, s, rfl⟩
  · rintro s rfl rfl
    exact h ⟨Or.inr rfl, s, rfl⟩

/-! ## Canonical expressions -/

/-- Constants are canonical, records have their keys in order, and no call makes a constant. -/
inductive Canonical : Expr → Prop
  | value {l} : l.Canonical → Canonical (.value l)
  | var {v} : Canonical (.var v)
  | not {a} : Canonical a → Canonical (.not a)
  | neg {a} : Canonical a → Canonical (.neg a)
  | binary {op a b} : Canonical a → Canonical b → Canonical (.binary op a b)
  | attr {op a name} : Canonical a → Canonical (.attr op a name)
  | is {a type} : Canonical a → Canonical (.is a type)
  | isIn {a type e} : Canonical a → Canonical e → Canonical (.isIn a type e)
  | like {a pattern} : Canonical a → Canonical (.like a pattern)
  | ite {c a b} : Canonical c → Canonical a → Canonical b → Canonical (.ite c a b)
  | set {items} : (∀ e ∈ items, Canonical e) → Canonical (.set items)
  | record {fields} : Fields.ascending (fields.map Prod.fst) →
    (∀ f ∈ fields, Canonical f.2) → Canonical (.record fields)
  | call {f args} : (∀ a ∈ args, Canonical a) → ¬ makesConstant f args → Canonical (.call f args)

theorem eq_string_of_typed {e : Expr} {s : String} (h : e.typed = string s) : e = string s := by
  cases e with
  | value l => exact h
  | call f args =>
    by_cases hcall : makesConstant f args
    · obtain ⟨rfl | rfl, t, rfl⟩ := hcall
      · cases h
      · cases h
    · rw [typed_call hcall] at h
      cases h
  | _ => cases h

theorem makesConstant_of_typedItems {f : ExtensionFn} {args : List Expr}
    (h : makesConstant f (typedItems args)) : makesConstant f args := by
  obtain ⟨hf, s, hargs⟩ := h
  refine ⟨hf, s, ?_⟩
  cases args with
  | nil => cases hargs
  | cons e rest =>
    obtain ⟨he, hrest⟩ := List.cons.inj hargs
    cases rest with
    | nil => rw [eq_string_of_typed he]
    | cons _ _ => cases hrest

theorem keys_typedFields (fields : List (String × Expr)) :
    (typedFields fields).map Prod.fst = fields.map Prod.fst := by
  induction fields with
  | nil => rfl
  | cons f fields ih =>
    obtain ⟨k, e⟩ := f
    unfold typedFields
    rw [List.map_cons, List.map_cons, ih]

mutual

theorem canonical_typed : ∀ e : Expr, e.sorted → e.unreserved → e.typed.Canonical
  | .value _, hs, hu => .value ⟨hs, hu⟩
  | .var _, _, _ => .var
  | .not a, hs, hu => .not (canonical_typed a hs hu)
  | .neg a, hs, hu => .neg (canonical_typed a hs hu)
  | .binary _ a b, hs, hu => by
    obtain ⟨hsa, hsb⟩ := Bool.and_eq_true_iff.mp hs
    obtain ⟨hua, hub⟩ := Bool.and_eq_true_iff.mp hu
    exact .binary (canonical_typed a hsa hua) (canonical_typed b hsb hub)
  | .attr _ a _, hs, hu => .attr (canonical_typed a hs hu)
  | .is a _, hs, hu => .is (canonical_typed a hs hu)
  | .isIn a _ e, hs, hu => by
    obtain ⟨hsa, hse⟩ := Bool.and_eq_true_iff.mp hs
    obtain ⟨hua, hue⟩ := Bool.and_eq_true_iff.mp hu
    exact .isIn (canonical_typed a hsa hua) (canonical_typed e hse hue)
  | .like a _, hs, hu => .like (canonical_typed a hs hu)
  | .ite c a b, hs, hu => by
    obtain ⟨hsca, hsb⟩ := Bool.and_eq_true_iff.mp hs
    obtain ⟨hsc, hsa⟩ := Bool.and_eq_true_iff.mp hsca
    obtain ⟨huca, hub⟩ := Bool.and_eq_true_iff.mp hu
    obtain ⟨huc, hua⟩ := Bool.and_eq_true_iff.mp huca
    exact .ite (canonical_typed c hsc huc) (canonical_typed a hsa hua) (canonical_typed b hsb hub)
  | .set items, hs, hu => .set (canonical_typedItems items hs hu)
  | .record fields, hs, hu => by
    obtain ⟨hascending, hs⟩ := Bool.and_eq_true_iff.mp hs
    refine .record ?_ (canonical_typedFields fields hs hu)
    rw [keys_typedFields]
    exact hascending
  | .call f args, hs, hu => by
    by_cases h : makesConstant f args
    · obtain ⟨rfl | rfl, s, rfl⟩ := h
      · exact .value ⟨rfl, rfl⟩
      · exact .value ⟨rfl, rfl⟩
    · rw [typed_call h]
      exact .call (canonical_typedItems args hs hu) fun h' => h (makesConstant_of_typedItems h')

theorem canonical_typedItems : ∀ items : List Expr, sortedItems items → unreservedItems items →
    ∀ e ∈ typedItems items, e.Canonical
  | [], _, _ => by
    intro e he
    cases he
  | e :: rest, hs, hu => by
    obtain ⟨hse, hs⟩ := Bool.and_eq_true_iff.mp hs
    obtain ⟨hue, hu⟩ := Bool.and_eq_true_iff.mp hu
    unfold typedItems
    rw [List.forall_mem_cons]
    exact ⟨canonical_typed e hse hue, canonical_typedItems rest hs hu⟩

theorem canonical_typedFields : ∀ fields : List (String × Expr), sortedFields fields →
    unreservedFields fields → ∀ f ∈ typedFields fields, f.2.Canonical
  | [], _, _ => by
    intro f hf
    cases hf
  | (k, e) :: rest, hs, hu => by
    obtain ⟨hse, hs⟩ := Bool.and_eq_true_iff.mp hs
    obtain ⟨hue, hu⟩ := Bool.and_eq_true_iff.mp hu
    unfold typedFields
    rw [List.forall_mem_cons]
    exact ⟨canonical_typed e hse hue, canonical_typedFields rest hs hu⟩

end

/-! ## Documents of canonical expressions -/

mutual

/-- A constructor with one text and the constant that it makes have one document. -/
theorem toJson_typed : ∀ e : Expr, e.typed.toJson = e.toJson
  | .value _ => rfl
  | .var _ => rfl
  | .not a => by simp only [typed, toJson, toJson_typed a]
  | .neg a => by simp only [typed, toJson, toJson_typed a]
  | .binary _ a b => by simp only [typed, toJson, toJson_typed a, toJson_typed b]
  | .attr _ a _ => by simp only [typed, toJson, toJson_typed a]
  | .is a _ => by simp only [typed, toJson, toJson_typed a]
  | .isIn a _ e => by simp only [typed, toJson, toJson_typed a, toJson_typed e]
  | .like a _ => by simp only [typed, toJson, toJson_typed a]
  | .ite c a b => by simp only [typed, toJson, toJson_typed c, toJson_typed a, toJson_typed b]
  | .set items => by simp only [typed, toJson, itemsToJson_typedItems items]
  | .record fields => by simp only [typed, toJson, fieldsToJson_typedFields fields]
  | .call f args => by
    by_cases h : makesConstant f args
    · obtain ⟨rfl | rfl, s, rfl⟩ := h
      · rfl
      · rfl
    · rw [typed_call h]
      simp only [toJson, itemsToJson_typedItems args]

theorem itemsToJson_typedItems : ∀ items : List Expr,
    itemsToJson (typedItems items) = itemsToJson items
  | [] => rfl
  | e :: rest => by
    simp only [typedItems, itemsToJson, toJson_typed e, itemsToJson_typedItems rest]

theorem fieldsToJson_typedFields : ∀ fields : List (String × Expr),
    fieldsToJson (typedFields fields) = fieldsToJson fields
  | [] => rfl
  | (k, e) :: rest => by
    simp only [typedFields, fieldsToJson, toJson_typed e, fieldsToJson_typedFields rest]

end

end AccessPolicy.Cedar.Expr
