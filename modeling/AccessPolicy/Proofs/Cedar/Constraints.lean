import AccessPolicy.Cedar.Scope
import AccessPolicy.Proofs.Cedar.Failures

/-!
# Constraints of scopes

A document of a scope has an operator and constraints on entities. Reading it looks only at the
constraints that belong to its operator. These are all kept, while a constraint of another operator
is passed over: the document reads as it would without that constraint.

* `ofJson_congr`: only the operator and its constraints matter.
* `populates_toJson_iff`: the constraints that are kept.
* `ofJson_constraints`: what becomes of all of them.
-/

namespace AccessPolicy.Cedar.Scope

/-- The keys that limit a scope. -/
def constraintKeys : List String := ["entity", "entities", "entity_type", "in", "slot"]

/-- The keys that limit a scope of an operator. -/
def usedKeys : String → List String
  | "==" => ["entity"]
  | "in" => ["entity", "entities"]
  | "is" => ["entity_type", "in"]
  | _ => []

/-- The document has a value for the key. -/
def Populates (j : Json) (key : String) : Prop := (j.field? key).isSome

instance (j : Json) (key : String) : Decidable (Populates j key) :=
  inferInstanceAs (Decidable (_ = true))

/-! ## Constraints that are looked at -/

section Congruence

variable {j j' : Json}

theorem entity?_congr (h : j.field? "entity" = j'.field? "entity") : entity? j = entity? j' := by
  unfold entity?
  rw [h]

theorem entity_congr {op : String} (h : j.field? "entity" = j'.field? "entity") :
    entity op j = entity op j' := by
  unfold entity
  rw [entity?_congr h]

theorem withinOfJson_congr (hentity : j.field? "entity" = j'.field? "entity")
    (hentities : j.field? "entities" = j'.field? "entities") :
    withinOfJson j = withinOfJson j' := by
  unfold withinOfJson
  rw [entity?_congr hentity, hentities]

theorem isOfJson_congr (htype : j.field? "entity_type" = j'.field? "entity_type")
    (hin : j.field? "in" = j'.field? "in") : isOfJson j = isOfJson j' := by
  unfold isOfJson Json.stringField?
  rw [htype, hin]

/-- Reading a scope looks at the operator and the constraints that belong to it. -/
theorem ofJson_congr {op : String} (hop : j.stringField? "op" = some op)
    (hop' : j'.stringField? "op" = some op)
    (h : ∀ key ∈ usedKeys op, j.field? key = j'.field? key) : ofJson j = ofJson j' := by
  unfold ofJson
  rw [hop, hop']
  dsimp only
  split
  · rfl
  · rw [entity_congr (h "entity" (by decide))]
  · exact withinOfJson_congr (h "entity" (by decide)) (h "entities" (by decide))
  · exact isOfJson_congr (h "entity_type" (by decide)) (h "in" (by decide))
  · rfl

end Congruence

/-- The fields of a document without the constraints that do not belong to an operator. -/
def relevant (op : String) (fields : List (String × Json)) : List (String × Json) :=
  fields.filter fun f => f.1 ∉ constraintKeys ∨ f.1 ∈ usedKeys op

theorem field?_relevant {op key : String} (fields : List (String × Json))
    (h : key ∉ constraintKeys ∨ key ∈ usedKeys op) :
    (Json.object (relevant op fields)).field? key = (Json.object fields).field? key := by
  show (relevant op fields).lookup key = fields.lookup key
  induction fields with
  | nil => rfl
  | cons f fields ih =>
    obtain ⟨k, v⟩ := f
    by_cases hk : key = k
    · subst hk
      rw [relevant, List.filter_cons_of_pos (by simpa using h), List.lookup_cons_self,
        List.lookup_cons_self]
    · have hne : (key == k) = false := by simpa using hk
      rw [List.lookup_cons, hne]
      by_cases hf : k ∉ constraintKeys ∨ k ∈ usedKeys op
      · rw [relevant, List.filter_cons_of_pos (by simpa using hf), List.lookup_cons, hne]
        exact ih
      · rw [relevant, List.filter_cons_of_neg (by simpa using hf)]
        exact ih

theorem ofJson_relevant {op : String} {fields : List (String × Json)}
    (hop : (Json.object fields).stringField? "op" = some op) :
    ofJson (.object (relevant op fields)) = ofJson (.object fields) := by
  have hkey : "op" ∉ constraintKeys := by decide
  have hop' : (Json.object (relevant op fields)).stringField? "op" = some op := by
    rw [← hop]
    unfold Json.stringField?
    rw [field?_relevant fields (.inl hkey)]
  exact ofJson_congr hop' hop fun key hused => field?_relevant fields (.inr hused)

/-! ## Constraints that are kept -/

/-- What a document of an operator populates when it reads as a scope. -/
inductive ReadAs (j : Json) : String → Scope → Prop where
  | all : ReadAs j "All" .all
  | eq {e : EntityUid} : Populates j "entity" → ReadAs j "==" (.eq e)
  | within {e : EntityUid} : Populates j "entity" → ¬Populates j "entities" →
      ReadAs j "in" (.within e)
  | withinAny {es : List EntityUid} : ¬Populates j "entity" → Populates j "entities" →
      ReadAs j "in" (.withinAny es)
  | is {type : String} : Populates j "entity_type" → ¬Populates j "in" → ReadAs j "is" (.is type)
  | isWithin {type : String} {e : EntityUid} : Populates j "entity_type" → Populates j "in" →
      ReadAs j "is" (.isWithin type e)

section Reading

variable {j : Json} {s : Scope}

theorem populates_of_entity? {e : EntityUid} (h : entity? j = .ok (some e)) :
    Populates j "entity" := by
  unfold entity? at h
  split at h
  · simp at h
  · rename_i hfield
    simp [Populates, hfield]

theorem not_populates_of_entity? (h : entity? j = .ok none) : ¬Populates j "entity" := by
  unfold entity? at h
  split at h
  · rename_i hfield
    simp [Populates, hfield]
  · obtain ⟨e, -, he⟩ := Outcome.map_eq_ok_iff.mp h
    simp at he

theorem populates_of_entity {op : String} {e : EntityUid} (h : entity op j = .ok e) :
    Populates j "entity" := by
  obtain ⟨found, hfound, h⟩ := Outcome.bind_eq_ok_iff.mp h
  cases found with
  | some e' => exact populates_of_entity? hfound
  | none => simp at h

theorem readAs_of_withinOfJson (h : withinOfJson j = .ok s) : ReadAs j "in" s := by
  obtain ⟨found, hfound, h⟩ := Outcome.bind_eq_ok_iff.mp h
  split at h
  · rename_i hentities
    cases h
    exact .within (populates_of_entity? hfound) (by simp [Populates, hentities])
  · rename_i hentities
    obtain ⟨es, -, h⟩ := Outcome.bind_eq_ok_iff.mp h
    cases h
    exact .withinAny (not_populates_of_entity? hfound) (by simp [Populates, hentities])
  · simp at h

theorem readAs_of_isOfJson (h : isOfJson j = .ok s) : ReadAs j "is" s := by
  unfold isOfJson at h
  split at h
  · simp at h
  · rename_i type htype
    have hpopulated : Populates j "entity_type" := by
      obtain ⟨t, ht, -⟩ := Option.bind_eq_some_iff.mp htype
      simp [Populates, ht]
    split at h
    · rename_i hin
      cases h
      exact .is hpopulated (by simp [Populates, hin])
    · rename_i container hin
      obtain ⟨e, -, rfl⟩ := Outcome.map_eq_ok_iff.mp h
      exact .isWithin hpopulated (by simp [Populates, hin])

theorem exists_readAs_of_ofJson (h : ofJson j = .ok s) :
    ∃ op, j.stringField? "op" = some op ∧ ReadAs j op s := by
  unfold ofJson at h
  split at h
  · simp at h
  · rename_i op hop
    refine ⟨op, hop, ?_⟩
    split at h
    · cases h
      exact .all
    · obtain ⟨e, he, rfl⟩ := Outcome.map_eq_ok_iff.mp h
      exact .eq (populates_of_entity he)
    · exact readAs_of_withinOfJson h
    · exact readAs_of_isOfJson h
    · simp at h

end Reading

/-- A constraint is kept if it belongs to the operator. -/
theorem populates_toJson_iff {j : Json} {op : String} {s : Scope} (h : ReadAs j op s)
    {key : String} (hkey : key ∈ constraintKeys) :
    Populates s.toJson key ↔ Populates j key ∧ key ∈ usedKeys op := by
  revert key
  cases h <;> simp_all [constraintKeys, usedKeys, toJson, Populates, Json.field?, List.lookup_cons]

/-! ## What becomes of the constraints -/

/-- **Constraints.** An object with an operator reads as it does without the constraints that do not
    belong to the operator. If it is read, then the scope has exactly those of its constraints that
    belong to the operator; so it has exactly the constraints of the object if all of them do, and
    otherwise it lacks one. Objects that are not read have a form outside the closed set. -/
theorem ofJson_constraints (fields : List (String × Json)) :
    (∀ op, (Json.object fields).stringField? "op" = some op →
      ofJson (.object (relevant op fields)) = ofJson (.object fields)) ∧
    (∀ s, ofJson (.object fields) = .ok s →
      ∃ op, (Json.object fields).stringField? "op" = some op ∧
        (∀ key ∈ constraintKeys,
          (Populates s.toJson key ↔ Populates (.object fields) key ∧ key ∈ usedKeys op)) ∧
        ((∀ key ∈ constraintKeys, (Populates (.object fields) key ↔ Populates s.toJson key)) ↔
          ∀ key ∈ constraintKeys, Populates (.object fields) key → key ∈ usedKeys op)) ∧
    ∀ e, ofJson (.object fields) = .error e → e.kind = .unsupportedNode := by
  refine ⟨fun op hop => ofJson_relevant hop, fun s h => ?_, fun e h => ?_⟩
  · obtain ⟨op, hop, hread⟩ := exists_readAs_of_ofJson h
    refine ⟨op, hop, fun key hkey => populates_toJson_iff hread hkey, ?_⟩
    refine forall₂_congr fun key hkey => ?_
    rw [populates_toJson_iff hread hkey]
    constructor
    · exact fun hsame hpop => (hsame.mp hpop).2
    · exact fun hused => ⟨fun hpop => ⟨hpop, hused hpop⟩, And.left⟩
  · exact List.mem_singleton.mp (failsWith_ofJson (.object fields) e h)

/-- Alice as the principal, with a slot besides. -/
theorem ofJson_constraints_slot :
    let fields := [("op", .string "=="), ("entity", (EntityUid.mk "User" "alice").toJson),
      ("slot", .string "?principal")]
    ofJson (.object fields) = .ok (.eq ⟨"User", "alice"⟩) ∧
      ofJson (.object (relevant "==" fields)) = .ok (.eq ⟨"User", "alice"⟩) ∧
      ¬∀ key ∈ constraintKeys, (Populates (.object fields) key ↔
        Populates (Scope.eq ⟨"User", "alice"⟩).toJson key) := by
  intro fields
  have hread : ofJson (.object fields) = .ok (.eq ⟨"User", "alice"⟩) := rfl
  obtain ⟨hrelevant, hkept, -⟩ := ofJson_constraints fields
  obtain ⟨op, hop, -, hall⟩ := hkept _ hread
  obtain rfl : "==" = op := Option.some.inj hop
  refine ⟨hread, (hrelevant "==" rfl).trans hread, fun hsame => ?_⟩
  have hused := hall.mp hsame "slot" (by decide) rfl
  exact absurd hused (by decide)

/-- A scope may lose its constraint: with the operator for no limit, an entity is passed over. -/
theorem constraint_passed_over :
    ¬∀ (fields : List (String × Json)) (s : Scope), ofJson (.object fields) = .ok s →
      ∀ key ∈ constraintKeys, (Populates (.object fields) key ↔ Populates s.toJson key) := by
  intro h
  let fields := [("op", .string "All"), ("entity", (EntityUid.mk "User" "alice").toJson)]
  have hread : ofJson (.object fields) = .ok .all := rfl
  have hpop : Populates (.object fields) "entity" := rfl
  have hkept := (h fields .all hread "entity" (by decide)).mp hpop
  exact absurd hkept (by decide)

end AccessPolicy.Cedar.Scope
