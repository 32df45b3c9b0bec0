import AccessPolicy.Cedar.Policy
import AccessPolicy.Proofs.Cedar.Expr.Positions

/-!
# How reading fails

An expression, a constant or a scope that cannot be read has a form outside the closed set, and this
is the only kind of error with which reading it fails. A policy may also lack the form of a policy.
An expression is not read if anything but a node stands at any of its positions, however deep.

* `Expr.failsWith_ofJson`, `Scope.failsWith_ofJson`, `Policy.failsWith_ofJson`: the kinds of error.
* `ofJson_rejects`: nodes at fault, and the kinds of error.
-/

namespace AccessPolicy.Cedar

open Outcome

/-! ## Constants -/

/-- Errors on forms outside the closed set. -/
abbrev formErrors : List ErrorKind := [.unsupportedNode]

theorem failsWith_unsupported {α : Type} (reason : String) :
    FailsWith formErrors (.error (.unsupported reason) : Except Error α) :=
  .error List.mem_cons_self

theorem failsWith_singleEntry (what : String) (j : Json) :
    FailsWith formErrors (singleEntry what j) := by
  unfold singleEntry entryError
  split
  · exact .ok
  · split <;> exact failsWith_unsupported _

namespace EntityUid

theorem failsWith_part (j : Json) (name : String) : FailsWith formErrors (part j name) := by
  unfold part
  split
  · exact .ok
  · exact failsWith_unsupported _

theorem failsWith_ofJson (j : Json) : FailsWith formErrors (ofJson j) :=
  .bind (failsWith_part _ _) fun _ => .bind (failsWith_part _ _) fun _ => .ok

end EntityUid

namespace Literal

theorem failsWith_ofExtension (j : Json) : FailsWith formErrors (ofExtension j) := by
  unfold ofExtension
  split
  · exact .ok
  · exact .ok
  · exact failsWith_unsupported _

mutual

theorem failsWith_ofJson : ∀ j : Json, FailsWith formErrors (ofJson j)
  | .null => failsWith_unsupported _
  | .bool _ => .ok
  | .number n => by
    unfold ofJson
    split
    · exact .ok
    · exact failsWith_unsupported _
  | .string _ => .ok
  | .array items => .map (failsWith_itemsOfJson items)
  | .object fields => by
    unfold ofJson
    split
    · exact .map (EntityUid.failsWith_ofJson _)
    · exact failsWith_ofExtension _
    · exact .map (failsWith_fieldsOfJson fields)

theorem failsWith_itemsOfJson : ∀ items : List Json, FailsWith formErrors (itemsOfJson items)
  | [] => .ok
  | j :: rest =>
    .bind (failsWith_ofJson j) fun _ => .bind (failsWith_itemsOfJson rest) fun _ => .ok

theorem failsWith_fieldsOfJson : ∀ fields : List (String × Json),
    FailsWith formErrors (fieldsOfJson fields)
  | [] => .ok
  | (_, j) :: rest =>
    .bind (failsWith_ofJson j) fun _ => .bind (failsWith_fieldsOfJson rest) fun _ => .ok

end

end Literal

/-! ## Expressions -/

namespace PatternElem

theorem failsWith_ofJson (j : Json) : FailsWith formErrors (ofJson j) := by
  unfold ofJson
  split
  · exact .ok
  · refine .bind (failsWith_singleEntry _ _) fun entry => ?_
    split
    · exact .ok
    · exact failsWith_unsupported _
  · exact failsWith_unsupported _

theorem failsWith_listOfJson (j : Json) : FailsWith formErrors (listOfJson j) := by
  unfold listOfJson
  split
  · exact .ok
  · exact .mapM fun j _ => failsWith_ofJson j
  · exact failsWith_unsupported _

end PatternElem

namespace Expr

section Entry

variable {key op name : String} {body : Json} {fields : ReadFields}
  {read : List (Except Error Expr)}

theorem failsWith_collect (h : ∀ r ∈ read, FailsWith formErrors r) :
    FailsWith formErrors (collect read) := by
  induction read with
  | nil => exact .ok
  | cons r read ih =>
    obtain ⟨hr, hread⟩ := List.forall_mem_cons.mp h
    exact .bind hr fun _ => .bind (ih hread) fun _ => .ok

theorem failsWith_collectFields (h : ∀ f ∈ fields, FailsWith formErrors f.2) :
    FailsWith formErrors (collectFields fields) := by
  induction fields with
  | nil => exact .ok
  | cons f fields ih =>
    obtain ⟨hf, hfields⟩ := List.forall_mem_cons.mp h
    exact .bind hf fun _ => .bind (ih hfields) fun _ => .ok

theorem failsWith_child (h : ∀ f ∈ fields, FailsWith formErrors f.2) :
    FailsWith formErrors (child fields op name) := by
  unfold child
  split
  · rename_i r hlookup
    exact h (name, r) (Fields.mem_of_lookup_eq_some hlookup)
  · exact failsWith_unsupported _

theorem failsWith_childText : FailsWith formErrors (childText body op name) := by
  unfold childText
  split
  · exact failsWith_unsupported _
  · exact .ok
  · exact failsWith_unsupported _

theorem failsWith_childItems (h : ∀ r ∈ read, FailsWith formErrors r) :
    FailsWith formErrors (childItems body read op) := by
  unfold childItems
  split
  · exact failsWith_collect h
  · exact failsWith_unsupported _

theorem failsWith_ofOperator (hfields : ∀ f ∈ fields, FailsWith formErrors f.2)
    (hread : ∀ r ∈ read, FailsWith formErrors r) :
    FailsWith formErrors (ofOperator key body fields read) := by
  unfold ofOperator
  split
  · exact .bind (failsWith_child hfields) fun _ => .bind (failsWith_child hfields) fun _ => .ok
  · exact .bind (failsWith_child hfields) fun _ => .bind failsWith_childText fun _ => .ok
  · exact .map (failsWith_childItems hread)
  · exact failsWith_unsupported _

/-- A node fails with these errors if the nodes in it do. -/
theorem failsWith_ofEntry (hfields : ∀ f ∈ fields, FailsWith formErrors f.2)
    (hread : ∀ r ∈ read, FailsWith formErrors r) :
    FailsWith formErrors (ofEntry key body fields read) := by
  have hchild : ∀ op name, FailsWith formErrors (child fields op name) := fun _ _ =>
    failsWith_child hfields
  unfold ofEntry
  split
  · exact .map (Literal.failsWith_ofJson body)
  · split
    · exact .ok
    · exact failsWith_unsupported _
  · exact .map (hchild _ _)
  · exact .map (hchild _ _)
  · refine .bind (hchild _ _) fun _ => .bind failsWith_childText fun _ => ?_
    split
    · exact .ok
    · rename_i r hlookup
      exact .bind (hfields _ (Fields.mem_of_lookup_eq_some hlookup)) fun _ => .ok
  · refine .bind (hchild _ _) fun _ => ?_
    split
    · exact failsWith_unsupported _
    · exact .bind (PatternElem.failsWith_listOfJson _) fun _ => .ok
  · exact .bind (hchild _ _) fun _ => .bind (hchild _ _) fun _ => .bind (hchild _ _) fun _ => .ok
  · exact .map (failsWith_childItems hread)
  · split
    · exact .map (failsWith_collectFields hfields)
    · exact failsWith_unsupported _
  · exact failsWith_ofOperator hfields hread

end Entry

mutual

theorem failsWith_ofJson : ∀ j : Json, FailsWith formErrors (ofJson j)
  | .object [(_, body)] => failsWith_ofEntry (failsWith_fieldsOf body) (failsWith_itemsOf body)
  | .object [] => failsWith_unsupported _
  | .object (_ :: _ :: _) => failsWith_unsupported _
  | .null => failsWith_unsupported _
  | .bool _ => failsWith_unsupported _
  | .number _ => failsWith_unsupported _
  | .string _ => failsWith_unsupported _
  | .array _ => failsWith_unsupported _

theorem failsWith_fieldsOf : ∀ j : Json, ∀ f ∈ fieldsOf j, FailsWith formErrors f.2
  | .object fields => failsWith_readFields fields
  | .null => by simp [fieldsOf]
  | .bool _ => by simp [fieldsOf]
  | .number _ => by simp [fieldsOf]
  | .string _ => by simp [fieldsOf]
  | .array _ => by simp [fieldsOf]

theorem failsWith_itemsOf : ∀ j : Json, ∀ r ∈ itemsOf j, FailsWith formErrors r
  | .array items => failsWith_readItems items
  | .null => by simp [itemsOf]
  | .bool _ => by simp [itemsOf]
  | .number _ => by simp [itemsOf]
  | .string _ => by simp [itemsOf]
  | .object _ => by simp [itemsOf]

theorem failsWith_readFields : ∀ fields : List (String × Json),
    ∀ f ∈ readFields fields, FailsWith formErrors f.2
  | [] => by simp [readFields]
  | (_, j) :: rest => by
    unfold readFields
    rw [List.forall_mem_cons]
    exact ⟨failsWith_ofJson j, failsWith_readFields rest⟩

theorem failsWith_readItems : ∀ items : List Json,
    ∀ r ∈ readItems items, FailsWith formErrors r
  | [] => by simp [readItems]
  | j :: rest => by
    unfold readItems
    rw [List.forall_mem_cons]
    exact ⟨failsWith_ofJson j, failsWith_readItems rest⟩

end

end Expr

/-! ## Scopes -/

namespace Scope

theorem failsWith_entity? (j : Json) : FailsWith formErrors (entity? j) := by
  unfold entity?
  split
  · exact .ok
  · exact .map (EntityUid.failsWith_ofJson _)

theorem failsWith_entity (op : String) (j : Json) : FailsWith formErrors (entity op j) := by
  refine .bind (failsWith_entity? j) fun found => ?_
  cases found with
  | some e => exact .ok
  | none => exact failsWith_unsupported _

theorem failsWith_withinOfJson (j : Json) : FailsWith formErrors (withinOfJson j) := by
  refine .bind (failsWith_entity? j) fun found => ?_
  split
  · exact .ok
  · exact .bind (.mapM fun j _ => EntityUid.failsWith_ofJson j) fun _ => .ok
  · exact failsWith_unsupported _

theorem failsWith_isOfJson (j : Json) : FailsWith formErrors (isOfJson j) := by
  unfold isOfJson
  split
  · exact failsWith_unsupported _
  · split
    · exact .ok
    · exact .map (failsWith_entity _ _)

theorem failsWith_ofJson (j : Json) : FailsWith formErrors (ofJson j) := by
  unfold ofJson
  split
  · exact failsWith_unsupported _
  · split
    · exact .ok
    · exact .map (failsWith_entity _ _)
    · exact failsWith_withinOfJson j
    · exact failsWith_isOfJson j
    · exact failsWith_unsupported _

end Scope

/-! ## Policies -/

/-- Errors on documents that are no policies, or hold forms outside the closed set. -/
abbrev policyErrors : List ErrorKind := [.parse, .unsupportedNode]

theorem failsWith_parse {α : Type} (reason : String) :
    FailsWith policyErrors (.error (.parse reason) : Except Error α) :=
  .error List.mem_cons_self

theorem failsWith_of_formErrors {α : Type} {x : Except Error α} (h : FailsWith formErrors x) :
    FailsWith policyErrors x :=
  h.mono (List.subset_cons_self _ _)

theorem Clause.failsWith_ofJson (j : Json) : FailsWith policyErrors (Clause.ofJson j) := by
  unfold Clause.ofJson
  split
  · exact failsWith_of_formErrors (failsWith_unsupported _)
  · split
    · exact failsWith_parse _
    · exact .map (failsWith_of_formErrors (Expr.failsWith_ofJson _))

namespace Policy

theorem failsWith_effectOf (j : Json) : FailsWith policyErrors (effectOf j) := by
  unfold effectOf
  split
  · exact failsWith_parse _
  · split
    · exact .ok
    · exact failsWith_parse _

theorem failsWith_annotationOf (key : String) (j : Json) :
    FailsWith policyErrors (annotationOf key j) := by
  unfold annotationOf
  split
  · exact .ok
  · exact .ok
  · exact failsWith_parse _

theorem failsWith_annotationsOf (j : Json) : FailsWith policyErrors (annotationsOf j) := by
  unfold annotationsOf
  split
  · exact .ok
  · exact .ok
  · exact .mapM fun f _ => failsWith_annotationOf f.1 f.2
  · exact failsWith_parse _

theorem failsWith_clausesOf (j : Json) : FailsWith policyErrors (clausesOf j) := by
  unfold clausesOf
  split
  · exact .ok
  · exact .mapM fun j _ => Clause.failsWith_ofJson j
  · exact failsWith_parse _

theorem failsWith_scopeOf (j : Json) (name : String) : FailsWith policyErrors (scopeOf j name) := by
  unfold scopeOf
  split
  · exact failsWith_of_formErrors (Scope.failsWith_ofJson _)
  · exact failsWith_parse _

theorem failsWith_ofJson (j : Json) : FailsWith policyErrors (ofJson j) := by
  unfold ofJson
  split
  · exact .bind (failsWith_effectOf _) fun _ => .bind (failsWith_annotationsOf _) fun _ =>
      .bind (failsWith_clausesOf _) fun _ => .bind (failsWith_scopeOf _ _) fun _ =>
      .bind (failsWith_scopeOf _ _) fun _ => .bind (failsWith_scopeOf _ _) fun _ => .ok
  · exact failsWith_parse _

end Policy

/-! ## Documents that are refused -/

/-- **Refusal.** A document with anything but a node at a position for a node is not read. Reading
    expressions, constants and scopes only fails on forms outside the closed set, and reading
    policies also on documents that are no policies. -/
theorem ofJson_rejects :
    (∀ root j : Json, Expr.NodeAt root j → Expr.Malformed j → ∃ e, Expr.ofJson root = .error e) ∧
    (∀ (j : Json) (e : Error), Expr.ofJson j = .error e → e.kind = .unsupportedNode) ∧
    (∀ (j : Json) (e : Error), Literal.ofJson j = .error e → e.kind = .unsupportedNode) ∧
    (∀ (j : Json) (e : Error), Scope.ofJson j = .error e → e.kind = .unsupportedNode) ∧
    ∀ (j : Json) (e : Error), Policy.ofJson j = .error e →
      e.kind = .parse ∨ e.kind = .unsupportedNode := by
  refine ⟨fun root j hj hmalformed => ?_, fun j e h => ?_, fun j e h => ?_, fun j e h => ?_,
    fun j e h => ?_⟩
  · cases hread : Expr.ofJson root with
    | error e => exact ⟨e, rfl⟩
    | ok e =>
      obtain ⟨e', he'⟩ := Expr.exists_ofJson_of_nodeAt hj hread
      exact absurd hmalformed (Expr.not_malformed_of_ofJson he')
  · exact List.mem_singleton.mp (Expr.failsWith_ofJson j e h)
  · exact List.mem_singleton.mp (Literal.failsWith_ofJson j e h)
  · exact List.mem_singleton.mp (Scope.failsWith_ofJson j e h)
  · exact List.mem_pair.mp (Policy.failsWith_ofJson j e h)

/-- An operator that does not exist, in a set within a conjunction. -/
theorem ofJson_rejects_unknownOperator :
    let bad : Json := tagged "=~" (.object [("left", tagged "Var" (.string "principal"))])
    let set : Json := tagged "Set" (.array [tagged "Value" (.bool true), bad])
    let root : Json := tagged "&&" (.object [("left", tagged "Var" (.string "context")),
      ("right", set)])
    Expr.NodeAt root bad ∧ Expr.Malformed bad ∧
      ∃ e, Expr.ofJson root = .error e ∧ e.kind = .unsupportedNode := by
  intro bad set root
  have hright : "right" ∈ Expr.operandNames "&&" := by decide
  have hset : Expr.NodeAt root set := .child (by decide) .root (.operand hright rfl)
  have hbad : Expr.NodeAt root bad :=
    .child (by decide) hset (.item (List.mem_cons_of_mem _ List.mem_cons_self))
  have hmalformed : Expr.Malformed bad := .unknownKey (by decide)
  obtain ⟨e, he⟩ := ofJson_rejects.1 root bad hbad hmalformed
  exact ⟨hbad, hmalformed, e, he, ofJson_rejects.2.1 root e he⟩

end AccessPolicy.Cedar
