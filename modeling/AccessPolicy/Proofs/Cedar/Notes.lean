import AccessPolicy.Cedar.Mapping
import AccessPolicy.Proofs.Fields
import AccessPolicy.Proofs.Outcome
import Mathlib.Data.List.Basic
import Mathlib.Data.List.Induction

/-!
# Annotations as notes

Notes hold the last value of each key that has a meaning. The annotations written for a policy use
each key once, so they read back as what the policy says.

* `ofAnnotations_eq_ok_iff`: reading fails only at a bad condition action, and otherwise gives the
  last values.
* `annotationsFor_eq`: the annotations of a policy, key by key.
* `notes_annotationsFor`, `notes_exclude`: what is read from the annotations of a policy, without
  and with the mark of excluded actions.
-/

namespace AccessPolicy.Cedar

open Outcome

/-! ## The last value of a key -/

/-- The value of a key that counts: the last one. -/
def lastValue? (annotations : List (String × String)) (key : String) : Option String :=
  annotations.reverse.lookup key

@[simp]
theorem lastValue?_nil (key : String) : lastValue? [] key = none := rfl

theorem lastValue?_append (as bs : List (String × String)) (key : String) :
    lastValue? (as ++ bs) key = (lastValue? bs key).or (lastValue? as key) := by
  unfold lastValue?
  rw [List.reverse_append, List.lookup_append]

theorem lastValue?_singleton (key' value key : String) :
    lastValue? [(key', value)] key = if key' = key then some value else none := by
  by_cases h : key' = key
  · simp [lastValue?, h]
  · simp [lastValue?, h, Ne.symm h]

theorem lastValue?_cons (key' value : String) (as : List (String × String)) (key : String) :
    lastValue? ((key', value) :: as) key =
      (lastValue? as key).or (if key' = key then some value else none) := by
  rw [← List.singleton_append, lastValue?_append, lastValue?_singleton]

theorem lastValue?_concat (as : List (String × String)) (key' value key : String) :
    lastValue? (as ++ [(key', value)]) key =
      if key' = key then some value else lastValue? as key := by
  rw [lastValue?_append, lastValue?_singleton]
  split_ifs <;> rfl

theorem lastValue?_optional (value : Option String) (key' key : String) :
    lastValue? (value.map (key', ·)).toList key = if key' = key then value else none := by
  cases value with
  | none => simp
  | some v => exact lastValue?_singleton key' v key

/-! ## Reading -/

namespace Notes

/-- Notes of the last values. -/
def ofValues (value : String → Option String) : Notes where
  id := value "id"
  subjectType := value "subjectType"
  providerId := value "providerId"
  pathSpec := value "pathSpec"
  rule := value "condition"
  conditionAction := (value "conditionAction").bind ConditionAction.ofName?
  excludes := value "exclude" = some "true"
  info :=
    { version := value "version", date := value "date", description := value "description",
      applicationId := value "applicationId", providerType := value "providerType",
      etag := value "etag" }

/-- Taking up an annotation makes its value the last one of its key. -/
theorem add_ofValues {as : List (String × String)} {key value : String}
    (h : key = "conditionAction" → (ConditionAction.ofName? value).isSome) :
    (ofValues (lastValue? as)).add key value =
      .ok (ofValues (lastValue? (as ++ [(key, value)]))) := by
  unfold add
  split
  case h_6 =>
    obtain ⟨a, ha⟩ := Option.isSome_iff_exists.mp (h rfl)
    simp [ofValues, lastValue?_concat, ha]
  case h_8 =>
    -- a key of descriptive data, or one without a meaning
    unfold Meta.setField?
    split <;> simp_all [ofValues, lastValue?_concat]
  all_goals simp [ofValues, lastValue?_concat]

theorem isSome_of_add_eq_ok {n m : Notes} {key value : String} (h : n.add key value = .ok m) :
    key = "conditionAction" → (ConditionAction.ofName? value).isSome := by
  rintro rfl
  cases hv : ConditionAction.ofName? value with
  | none => simp [add, hv] at h
  | some a => rfl

theorem ofAnnotations_eq_ok_iff {as : List (String × String)} {n : Notes} :
    ofAnnotations as = .ok n ↔
      (∀ a ∈ as, a.1 = "conditionAction" → (ConditionAction.ofName? a.2).isSome) ∧
        n = ofValues (lastValue? as) := by
  induction as using List.reverseRecOn generalizing n with
  | nil =>
    have hempty : ofValues (lastValue? []) = {} := by decide
    rw [hempty, ofAnnotations, List.foldlM_nil, pure_eq_ok_iff]
    constructor
    · rintro rfl
      exact ⟨by simp, rfl⟩
    · rintro ⟨-, rfl⟩
      rfl
  | append_singleton as a ih =>
    obtain ⟨key, value⟩ := a
    have hstep : ofAnnotations (as ++ [(key, value)]) = .ok n ↔
        ∃ m, ofAnnotations as = .ok m ∧ m.add key value = .ok n := by
      unfold ofAnnotations
      rw [List.foldlM_append, bind_eq_ok_iff]
      simp
    rw [hstep]
    constructor
    · rintro ⟨m, hm, hn⟩
      obtain ⟨hall, rfl⟩ := ih.mp hm
      have hlast := isSome_of_add_eq_ok hn
      rw [add_ofValues hlast] at hn
      refine ⟨?_, (Except.ok.inj hn).symm⟩
      intro a ha
      rcases List.mem_append.mp ha with ha | ha
      · exact hall a ha
      · rw [List.mem_singleton.mp ha]
        exact hlast
    · rintro ⟨hall, rfl⟩
      refine ⟨ofValues (lastValue? as), ih.mpr ⟨?_, rfl⟩, add_ofValues ?_⟩
      · exact fun a ha => hall a (List.mem_append_left _ ha)
      · exact hall (key, value) (by simp)

end Notes

/-! ## The annotations of a policy -/

theorem fields_eq (m : Meta) :
    m.fields = (m.version.map ("version", ·)).toList ++ (m.date.map ("date", ·)).toList
      ++ (m.description.map ("description", ·)).toList
      ++ (m.applicationId.map ("applicationId", ·)).toList
      ++ (m.providerType.map ("providerType", ·)).toList ++ (m.etag.map ("etag", ·)).toList := by
  unfold Meta.fields Meta.slots
  rw [List.filterMap_eq_flatMap_toList]
  simp

/-- The annotations of a policy: what it says under each key that it says something under, in the
    order of the keys. -/
def remarks (p : AccessPolicy.Policy) : List (String × String) :=
  [("id", p.id), ("version", p.info.version), ("date", p.info.date),
   ("description", p.info.description), ("applicationId", p.info.applicationId),
   ("providerType", p.info.providerType), ("etag", p.info.etag),
   ("subjectType", p.subject.type), ("providerId", p.subject.providerId),
   ("pathSpec", p.object.bind Object.pathSpec), ("condition", p.condition.map Condition.rule),
   ("conditionAction", p.condition.map fun cond => cond.action.name)].filterMap
    fun r => r.2.map (r.1, ·)

theorem annotationsFor_eq (p : AccessPolicy.Policy) : annotationsFor p = remarks p := by
  unfold annotationsFor remarks
  generalize p.object.bind Object.pathSpec = path
  rw [List.filterMap_eq_flatMap_toList]
  cases p.condition with
  | none => simp [fields_eq]
  | some cond => simp [fields_eq]

/-- What the notes of a policy say. -/
def notesOf (p : AccessPolicy.Policy) : Notes where
  id := p.id
  subjectType := p.subject.type
  providerId := p.subject.providerId
  pathSpec := p.object.bind Object.pathSpec
  rule := p.condition.map Condition.rule
  conditionAction := p.condition.map Condition.action
  info := p.info

theorem ofValues_annotationsFor (p : AccessPolicy.Policy) :
    Notes.ofValues (lastValue? (annotationsFor p)) = notesOf p := by
  unfold annotationsFor notesOf
  generalize p.object.bind Object.pathSpec = path
  cases p.condition with
  | none => simp [Notes.ofValues, fields_eq, lastValue?_append, lastValue?_optional]
  | some cond =>
    simp [Notes.ofValues, fields_eq, lastValue?_append, lastValue?_optional, lastValue?_cons]

theorem isSome_of_mem_annotationsFor {p : AccessPolicy.Policy} {a : String × String}
    (h : a ∈ annotationsFor p) (hkey : a.1 = "conditionAction") :
    (ConditionAction.ofName? a.2).isSome := by
  obtain ⟨key, value⟩ := a
  obtain rfl : key = "conditionAction" := hkey
  unfold annotationsFor at h
  generalize p.object.bind Object.pathSpec = path at h
  cases hcond : p.condition with
  | none => simp [hcond, fields_eq] at h
  | some cond =>
    have hvalue : value = cond.action.name := by
      simpa [hcond, fields_eq] using h
    rw [hvalue, ConditionAction.ofName?_name]
    rfl

/-- The annotations of a policy read back as what it says. -/
theorem notes_annotationsFor (p : AccessPolicy.Policy) :
    Notes.ofAnnotations (annotationsFor p) = .ok (notesOf p) := by
  rw [Notes.ofAnnotations_eq_ok_iff]
  exact ⟨fun a => isSome_of_mem_annotationsFor, (ofValues_annotationsFor p).symm⟩

theorem ne_excludeKey_of_mem_annotationsFor {p : AccessPolicy.Policy} {a : String × String}
    (h : a ∈ annotationsFor p) : a.1 ≠ excludeKey := by
  obtain ⟨key, value⟩ := a
  rintro rfl
  unfold annotationsFor excludeKey at h
  generalize p.object.bind Object.pathSpec = path at h
  cases hcond : p.condition <;> simp [hcond, fields_eq] at h

/-- With the mark of excluded actions they read back as what the policy says and this mark. -/
theorem notes_exclude (p : AccessPolicy.Policy) :
    Notes.ofAnnotations (Fields.set excludeKey "true" (annotationsFor p)) =
      .ok { notesOf p with excludes := true } := by
  rw [Fields.set_eq_append fun a => ne_excludeKey_of_mem_annotationsFor,
    Notes.ofAnnotations_eq_ok_iff]
  constructor
  · intro a ha hkey
    rcases List.mem_append.mp ha with ha | ha
    · exact isSome_of_mem_annotationsFor ha hkey
    · rw [List.mem_singleton.mp ha] at hkey
      exact absurd hkey (by decide)
  · rw [← ofValues_annotationsFor]
    simp [Notes.ofValues, excludeKey, lastValue?_concat]

end AccessPolicy.Cedar
