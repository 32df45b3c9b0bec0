import AccessPolicy.Proofs.Cedar.Expr.Plain
import AccessPolicy.Proofs.Cedar.Expr.RoundTrip
import AccessPolicy.Proofs.Cedar.Notes
import AccessPolicy.Proofs.Cedar.Pieces
import AccessPolicy.Proofs.Json.RoundTrip

/-!
# Cedar policies read back

A policy that was read from a document, or made from a policy set, is well-formed: it annotates no
key twice, and the bodies of its conditions are ones that reading makes. A well-formed policy is
read back from its document, and policies are read back from the text of their document.

* `Policy.WellFormed`: the policies that are read back.
* `Policy.ofJson_toJson`: reading the document of a policy leaves the last value of each key.
* `Policy.wellFormed_of_ofJson`, `Config.wellFormed_of_mem_split`, `Policy.annotateAll_eq`: where
  policies come from.
* `Policy.load_written`: policies are loaded from the text that was written for them.
* `Policy.load_round_trip`: all of it together.
-/

namespace AccessPolicy.Cedar

open Outcome

/-! ## Scopes -/

theorem EntityUid.ofJson_toJson (e : EntityUid) : ofJson e.toJson = .ok e := rfl

namespace Scope

theorem ofJson_toJson (s : Scope) : ofJson s.toJson = .ok s := by
  cases s with
  | withinAny es =>
    have hes : (es.map EntityUid.toJson).mapM EntityUid.ofJson = .ok es :=
      mapM_map_eq_ok fun e _ => e.ofJson_toJson
    show (do return withinAny (← (es.map EntityUid.toJson).mapM EntityUid.ofJson)) = _
    rw [hes]
    rfl
  | _ => rfl

theorem plain_toJson (s : Scope) : s.toJson.Plain := by
  have hentities (es : List EntityUid) : (Json.array (es.map EntityUid.toJson)).Plain :=
    Json.plain_array (List.forall_mem_map.mpr fun e _ => e.plain_toJson)
  have hentity (e : EntityUid) : (Json.object [("entity", e.toJson)]).Plain :=
    Json.plain_object (by simp) (by simp [e.plain_toJson])
  cases s <;>
    exact Json.plain_object (by simp) (by simp [EntityUid.plain_toJson, hentities, hentity])

end Scope

/-! ## Conditions -/

namespace Clause

theorem ofJson_toJson {cl : Clause} (h : cl.body.Canonical) : ofJson cl.toJson = .ok cl := by
  have hbody := Expr.ofJson_toJson_of_canonical cl.body h
  have hkind : (cl.toJson.stringField? "kind").bind ConditionKind.ofName? = some cl.kind :=
    ConditionKind.ofName?_name cl.kind
  unfold ofJson
  rw [hkind]
  show (Expr.ofJson cl.body.toJson).map (⟨cl.kind, ·⟩) = .ok cl
  rw [hbody]
  rfl

theorem plain_toJson {cl : Clause} (h : cl.body.Canonical) : cl.toJson.Plain :=
  Json.plain_object (by simp) (by simp [Expr.plain_toJson h])

theorem exists_of_ofJson {j : Json} {cl : Clause} (h : ofJson j = .ok cl) :
    ∃ body, Expr.ofJson body = .ok cl.body := by
  unfold ofJson at h
  split at h
  · cases h
  · split at h
    · cases h
    · rename_i body _
      obtain ⟨e, he, rfl⟩ := map_eq_ok_iff.mp h
      exact ⟨body, he⟩

end Clause

namespace Policy

/-- The keys of the annotations of a policy. -/
def keys (p : Policy) : List String := p.annotations.map Prod.fst

/-- A policy that annotates no key twice and whose conditions were read from documents. -/
structure WellFormed (p : Policy) : Prop where
  keys : p.keys.Nodup
  bodies : ∀ cl ∈ p.clauses, ∃ j, Expr.ofJson j = .ok cl.body

variable {p : Policy}

theorem canonical_of_bodies (h : ∀ cl ∈ p.clauses, ∃ j, Expr.ofJson j = .ok cl.body) :
    ∀ cl ∈ p.clauses, cl.body.Canonical := by
  intro cl hcl
  obtain ⟨j, hj⟩ := h cl hcl
  exact Expr.canonical_of_ofJson j cl.body hj

theorem WellFormed.canonical (h : p.WellFormed) : ∀ cl ∈ p.clauses, cl.body.Canonical :=
  canonical_of_bodies h.bodies

/-! ## One policy -/

theorem annotationsOf_toJson (p : Policy) :
    annotationsOf p.toJson = .ok (Fields.setAll [] p.annotations) := by
  by_cases hempty : p.annotations = []
  · have hfield : p.toJson.field? "annotations" = none := by
      rw [toJson, annotationField, hempty]
      rfl
    rw [annotationsOf, hfield, hempty]
    rfl
  · have hentries : Fields.setAll [] (p.annotations.map fun a => (a.1, Json.string a.2)) =
        (Fields.setAll [] p.annotations).map fun a => (a.1, Json.string a.2) :=
      Fields.setAll_map Json.string [] p.annotations
    have hfield : p.toJson.field? "annotations" =
        some (.object ((Fields.setAll [] p.annotations).map fun a => (a.1, Json.string a.2))) := by
      rw [toJson, annotationField, if_neg (by simpa using hempty), hentries]
      rfl
    rw [annotationsOf, hfield]
    exact mapM_map_eq_ok fun a _ => rfl

theorem clausesOf_toJson (h : ∀ cl ∈ p.clauses, cl.body.Canonical) :
    clausesOf p.toJson = .ok p.clauses := by
  have hfield : p.toJson.field? "conditions" = some (.array (p.clauses.map Clause.toJson)) := by
    unfold toJson annotationField
    split_ifs <;> rfl
  rw [clausesOf, hfield]
  exact mapM_map_eq_ok fun cl hcl => Clause.ofJson_toJson (h cl hcl)

theorem effectOf_toJson (p : Policy) : effectOf p.toJson = .ok p.effect := by
  have hfield : p.toJson.stringField? "effect" = some p.effect.name := rfl
  rw [effectOf, hfield]
  simp

theorem scopeOf_toJson (p : Policy) :
    scopeOf p.toJson "principal" = .ok p.principal ∧ scopeOf p.toJson "action" = .ok p.action ∧
      scopeOf p.toJson "resource" = .ok p.resource := by
  have hfields : p.toJson.field? "principal" = some p.principal.toJson ∧
      p.toJson.field? "action" = some p.action.toJson ∧
      p.toJson.field? "resource" = some p.resource.toJson := by
    unfold toJson annotationField
    split_ifs <;> exact ⟨rfl, rfl, rfl⟩
  obtain ⟨hprincipal, haction, hresource⟩ := hfields
  unfold scopeOf
  rw [hprincipal, haction, hresource]
  exact ⟨p.principal.ofJson_toJson, p.action.ofJson_toJson, p.resource.ofJson_toJson⟩

/-- The document of a policy is read as the policy with the last value of each annotation. -/
theorem ofJson_toJson (h : ∀ cl ∈ p.clauses, cl.body.Canonical) :
    ofJson p.toJson = .ok { p with annotations := Fields.setAll [] p.annotations } := by
  obtain ⟨hprincipal, haction, hresource⟩ := scopeOf_toJson p
  have hsteps : ofJson p.toJson = (do
      let effect ← effectOf p.toJson
      let annotations ← annotationsOf p.toJson
      let clauses ← clausesOf p.toJson
      let principal ← scopeOf p.toJson "principal"
      let action ← scopeOf p.toJson "action"
      let resource ← scopeOf p.toJson "resource"
      return { effect, annotations, principal, action, resource, clauses }) := rfl
  rw [hsteps, effectOf_toJson, annotationsOf_toJson, clausesOf_toJson h, hprincipal, haction,
    hresource]
  rfl

/-- A policy is read back from its document if it annotates no key twice. -/
theorem ofJson_toJson_eq_iff (h : ∀ cl ∈ p.clauses, cl.body.Canonical) :
    ofJson p.toJson = .ok p ↔ p.keys.Nodup := by
  rw [ofJson_toJson h, Except.ok.injEq]
  constructor
  · intro hp
    have hannotations : Fields.setAll [] p.annotations = p.annotations :=
      congrArg Policy.annotations hp
    rw [keys, ← hannotations, Fields.keys_setAll]
    exact nodup_addAll List.nodup_nil _
  · intro hkeys
    have hannotations : Fields.setAll [] p.annotations = p.annotations :=
      Fields.setAll_eq_append hkeys
    rw [hannotations]

theorem WellFormed.ofJson_toJson (h : p.WellFormed) : ofJson p.toJson = .ok p :=
  (ofJson_toJson_eq_iff h.canonical).mpr h.keys

theorem WellFormed.plain_toJson (h : p.WellFormed) : p.toJson.Plain := by
  have hclauses : (Json.array (p.clauses.map Clause.toJson)).Plain :=
    Json.plain_array
      (List.forall_mem_map.mpr fun cl hcl => Clause.plain_toJson (h.canonical cl hcl))
  have hannotations : (Json.object
      (Fields.setAll [] (p.annotations.map fun a => (a.1, Json.string a.2)))).Plain := by
    have hkeys : ((p.annotations.map fun a => (a.1, Json.string a.2)).map Prod.fst).Nodup := by
      rw [List.map_map]
      exact h.keys
    rw [Fields.setAll_eq_append hkeys, List.nil_append]
    exact Json.plain_object hkeys (List.forall_mem_map.mpr fun a _ => Json.plain_string a.2)
  unfold toJson annotationField
  split_ifs
  · exact Json.plain_object (by simp) (by simp [Scope.plain_toJson, hclauses])
  · exact Json.plain_object (by simp) (by simp [Scope.plain_toJson, hclauses, hannotations])

/-! ## Where policies come from -/

theorem keys_of_annotationsOf {j : Json} (hj : j.KeysDistinct)
    {annotations : List (String × String)} (h : annotationsOf j = .ok annotations) :
    (annotations.map Prod.fst).Nodup := by
  unfold annotationsOf at h
  split at h
  case h_3 entries hfield =>
    have hread := mapM_eq_ok_iff.mp h
    have hkeys : annotations.map Prod.fst = entries.map Prod.fst := by
      clear hfield h
      induction hread with
      | nil => rfl
      | @cons e a entries annotations ha _ ih =>
        have hkey : a.1 = e.1 := by
          unfold annotationOf at ha
          split at ha
          · rw [← Except.ok.inj ha]
          · rw [← Except.ok.inj ha]
          · cases ha
        rw [List.map_cons, List.map_cons, hkey, ih]
    rw [hkeys]
    exact (hj.of_field? hfield).nodup_keys
  case h_4 => cases h
  all_goals
    obtain rfl := Except.ok.inj h
    exact List.nodup_nil

theorem bodies_of_clausesOf {j : Json} {clauses : List Clause} (h : clausesOf j = .ok clauses) :
    ∀ cl ∈ clauses, ∃ body, Expr.ofJson body = .ok cl.body := by
  unfold clausesOf at h
  split at h
  · obtain rfl := Except.ok.inj h
    simp
  · intro cl hcl
    obtain ⟨item, -, hitem⟩ := exists_of_mem_right (mapM_eq_ok_iff.mp h) hcl
    exact Clause.exists_of_ofJson hitem
  · cases h

/-- A policy that was read from a document is well-formed. -/
theorem wellFormed_of_ofJson {j : Json} (hj : j.KeysDistinct) (h : ofJson j = .ok p) :
    p.WellFormed := by
  unfold ofJson at h
  split at h
  · simp only [bind_eq_ok_iff, pure_eq_ok_iff] at h
    obtain ⟨_, _, annotations, hannotations, clauses, hclauses, _, _, _, _, _, _, rfl⟩ := h
    exact ⟨keys_of_annotationsOf hj hannotations, bodies_of_clausesOf hclauses⟩
  · cases h

/-- Gives annotations values in order. -/
def annotateAll (p : Policy) (more : List (String × String)) : Policy :=
  more.foldl (fun q a => q.annotate a.1 a.2) p

theorem annotateAll_eq (p : Policy) (more : List (String × String)) :
    p.annotateAll more = { p with annotations := Fields.setAll p.annotations more } := by
  unfold annotateAll
  induction more generalizing p with
  | nil => rfl
  | cons a more ih =>
    rw [List.foldl_cons, ih]
    rfl

theorem keys_annotateAll (p : Policy) (more : List (String × String)) :
    (p.annotateAll more).keys = addAll p.keys (more.map Prod.fst) := by
  rw [annotateAll_eq]
  exact Fields.keys_setAll p.annotations more

theorem annotation?_annotateAll (p : Policy) (more : List (String × String)) (key : String) :
    (p.annotateAll more).annotation? key = (lastValue? more key).or (p.annotation? key) := by
  rw [annotateAll_eq]
  exact Fields.lookup_setAll p.annotations more key

theorem WellFormed.annotateAll (h : p.WellFormed) (more : List (String × String)) :
    (p.annotateAll more).WellFormed where
  keys := by
    rw [keys_annotateAll]
    exact nodup_addAll h.keys _
  bodies := by
    rw [annotateAll_eq]
    exact h.bodies

end Policy

/-! ## Policies made from a policy set -/

theorem sublist_optional (value : Option String) (key : String) :
    (value.map (key, ·)).toList.map Prod.fst |>.Sublist [key] := by
  cases value <;> simp

/-- The annotations written for a policy use each key once. -/
theorem nodup_keys_annotationsFor (p : AccessPolicy.Policy) :
    ((annotationsFor p).map Prod.fst).Nodup := by
  have hkeys : ((annotationsFor p).map Prod.fst).Sublist
      (["id"] ++ (["version"] ++ ["date"] ++ ["description"] ++ ["applicationId"]
        ++ ["providerType"] ++ ["etag"]) ++ ["subjectType"] ++ ["providerId"] ++ ["pathSpec"]
        ++ ["condition", "conditionAction"]) := by
    unfold annotationsFor
    simp only [fields_eq, List.map_append]
    refine List.Sublist.append ?_ ?_
    · repeat' first | exact sublist_optional _ _ | apply List.Sublist.append
    · cases p.condition <;> simp
  exact hkeys.nodup (by decide)

/-- A policy that was made from a policy set is well-formed. -/
theorem Config.wellFormed_of_mem_split {c : Config} {ps : List AccessPolicy.Policy}
    {qs : List Policy} (h : c.split ps = .ok qs) {q : Policy} (hq : q ∈ qs) : q.WellFormed := by
  obtain ⟨p, -, _, -, s, -, g, -, rfl⟩ := (Config.mem_split_iff h).mp hq
  refine ⟨?_, by simp⟩
  unfold Config.piece
  split_ifs
  · show ((Fields.set excludeKey "true" (annotationsFor p)).map Prod.fst).Nodup
    rw [Fields.keys_set]
    exact nodup_addNew (nodup_keys_annotationsFor p) excludeKey
  · exact nodup_keys_annotationsFor p

namespace Policy

variable {p : Policy} {ps : List Policy}

/-! ## Loading -/

theorem listOfJson_listToJson (h : ∀ p ∈ ps, p.WellFormed) : listOfJson (listToJson ps) = .ok ps :=
  mapM_map_eq_ok fun p hp => (h p hp).ofJson_toJson

theorem listOfJson_toJson (h : p.WellFormed) : listOfJson p.toJson = .ok [p] := by
  have hfield : p.toJson.field? "staticPolicies" = none := by
    unfold toJson annotationField
    split_ifs <;> rfl
  obtain ⟨fields, hobject⟩ : ∃ fields, p.toJson = .object fields := ⟨_, rfl⟩
  have hpolicy : ofJson (.object fields) = .ok p := hobject ▸ h.ofJson_toJson
  rw [hobject] at hfield ⊢
  simp [listOfJson, hfield, hpolicy, Except.map]

/-- Policies under names as a document. -/
def setToJson (named : List (String × Policy)) : Json :=
  .object [("staticPolicies", .object (named.map fun e => (e.1, e.2.toJson)))]

theorem listOfJson_setToJson {named : List (String × Policy)}
    (h : ∀ e ∈ named, e.2.WellFormed) :
    listOfJson (setToJson named) = .ok (named.map Prod.snd) := by
  have hread : (named.map fun e => (e.1, e.2.toJson)).mapM (fun f : String × Json => ofJson f.2) =
      .ok (named.map Prod.snd) := by
    rw [mapM_eq_ok_iff, List.forall₂_map_left_iff, List.forall₂_map_right_iff, List.forall₂_same]
    exact fun e he => (h e he).ofJson_toJson
  exact hread

theorem plain_listToJson (h : ∀ p ∈ ps, p.WellFormed) : (listToJson ps).Plain :=
  Json.plain_array (List.forall_mem_map.mpr fun p hp => (h p hp).plain_toJson)

theorem plain_setToJson {named : List (String × Policy)} (hnames : (named.map Prod.fst).Nodup)
    (h : ∀ e ∈ named, e.2.WellFormed) : (setToJson named).Plain := by
  have hset : (Json.object (named.map fun e => (e.1, e.2.toJson))).Plain := by
    refine Json.plain_object ?_ (List.forall_mem_map.mpr fun e he => (h e he).plain_toJson)
    rw [List.map_map]
    exact hnames
  exact Json.plain_object (by simp) (by simp [hset])

theorem wellFormed_of_listOfJson {j : Json} (hj : j.KeysDistinct) (h : listOfJson j = .ok ps) :
    ∀ p ∈ ps, p.WellFormed := by
  unfold listOfJson at h
  split at h
  · intro p hp
    obtain ⟨item, hitem, hread⟩ := exists_of_mem_right (mapM_eq_ok_iff.mp h) hp
    exact wellFormed_of_ofJson (hj.of_mem_items hitem) hread
  · split at h
    · rename_i entries hfield
      intro p hp
      obtain ⟨e, he, hread⟩ := exists_of_mem_right (mapM_eq_ok_iff.mp h) hp
      exact wellFormed_of_ofJson ((hj.of_field? hfield).of_mem_values he) hread
    · cases h
    · obtain ⟨p, hread, rfl⟩ := map_eq_ok_iff.mp h
      exact List.forall_mem_singleton.mpr (wellFormed_of_ofJson hj hread)
  · cases h

/-- Policies that were loaded are well-formed. -/
theorem wellFormed_of_load {bytes : List UInt8} (h : load bytes = .ok ps) (hp : p ∈ ps) :
    p.WellFormed := by
  unfold load at h
  split at h
  · cases h
  · rename_i j hj
    exact wellFormed_of_listOfJson (Json.keysDistinct_of_readBytes hj) h p hp

/-- The text of a document is loaded like the document, unless it has too many levels. -/
theorem load_written {write : Json → String} (hwrite : write ∈ [Json.compact, Json.pretty])
    {j : Json} (hj : j.Plain) (h : listOfJson j = .ok ps) :
    load (Json.utf8 (write j)) =
      if j.depth ≤ Json.maxDepth then .ok ps else .error .malformed := by
  rw [load, Json.readBytes_written hwrite hj]
  split_ifs
  · exact h
  · rfl

/-- **Documents of policies.** A policy whose conditions were read is read back from its document,
    with its annotations in order, if and only if it annotates no key twice. This holds of policies
    that were read, of those that are made from a policy set, and of what annotating makes of such a
    policy: keys keep the place where they first came and have the value that came last. Texts in
    which such policies were written, as a list, one alone or a set under names, are loaded as these
    policies in order. Only a document with too many levels is refused. -/
theorem load_round_trip :
    (∀ p : Policy, (∀ cl ∈ p.clauses, ∃ j, Expr.ofJson j = .ok cl.body) →
        (ofJson p.toJson = .ok p ↔ p.keys.Nodup)) ∧
      (∀ (j : Json) (p : Policy), j.KeysDistinct → ofJson j = .ok p → p.WellFormed) ∧
      (∀ bytes ps, load bytes = .ok ps → ∀ p ∈ ps, p.WellFormed) ∧
      (∀ (c : Config) sources ps, c.split sources = .ok ps → ∀ p ∈ ps, p.WellFormed) ∧
      (∀ (p : Policy) more,
        (p.annotateAll more).keys = addAll p.keys (more.map Prod.fst) ∧
          (∀ key, (p.annotateAll more).annotation? key =
            (lastValue? more key).or (p.annotation? key)) ∧
          p.annotateAll more = { p with annotations := (p.annotateAll more).annotations } ∧
          (p.WellFormed → (p.annotateAll more).WellFormed)) ∧
      ∀ write ∈ [Json.compact, Json.pretty],
        (∀ ps : List Policy, (∀ p ∈ ps, p.WellFormed) →
          load (Json.utf8 (write (listToJson ps))) =
            if (listToJson ps).depth ≤ Json.maxDepth then .ok ps else .error .malformed) ∧
          (∀ p : Policy, p.WellFormed →
            load (Json.utf8 (write p.toJson)) =
              if p.toJson.depth ≤ Json.maxDepth then .ok [p] else .error .malformed) ∧
          ∀ named : List (String × Policy), (named.map Prod.fst).Nodup →
            (∀ e ∈ named, e.2.WellFormed) →
            load (Json.utf8 (write (setToJson named))) =
              if (setToJson named).depth ≤ Json.maxDepth then .ok (named.map Prod.snd)
              else .error .malformed := by
  refine ⟨fun p h => ofJson_toJson_eq_iff (canonical_of_bodies h),
    fun j p => wellFormed_of_ofJson, fun bytes ps h p hp => wellFormed_of_load h hp,
    fun c sources ps h p hp => Config.wellFormed_of_mem_split h hp, fun p more => ?_,
    fun write hwrite => ⟨fun ps h => ?_, fun p h => ?_, fun named hnames h => ?_⟩⟩
  · refine ⟨keys_annotateAll p more, annotation?_annotateAll p more, ?_,
      fun h => h.annotateAll more⟩
    rw [annotateAll_eq]
  · exact load_written hwrite (plain_listToJson h) (listOfJson_listToJson h)
  · exact load_written hwrite h.plain_toJson (listOfJson_toJson h)
  · exact load_written hwrite (plain_setToJson hnames h) (listOfJson_setToJson h)

/-- Members of a group may view and edit, in the evening. -/
def eveningRule : Policy where
  effect := .permit
  annotations := [("version", "2"), ("id", "evening")]
  principal := .isWithin "User" ⟨"Group", "admins"⟩
  action := .withinAny [⟨"Action", "view"⟩, ⟨"Action", "edit"⟩]
  clauses := [⟨.when, .binary .less (.value (.long 18)) (.attr .access (.var .context) "hour")⟩]

/-- The policy is read back, also from texts, and can be annotated further. A policy made from a
    policy set is like it. -/
theorem load_round_trip_eveningRule :
    eveningRule.WellFormed ∧ ofJson eveningRule.toJson = .ok eveningRule ∧
      (∃ ps, ({} : Config).split [{ id := some "evening" }] = .ok ps ∧ ∀ p ∈ ps, p.WellFormed) ∧
      (eveningRule.annotateAll [("id", "late"), ("note", "x"), ("id", "night")]).keys =
        ["version", "id", "note"] ∧
      load (Json.utf8 (Json.compact (listToJson [eveningRule, eveningRule]))) =
        .ok [eveningRule, eveningRule] ∧
      load (Json.utf8 (Json.pretty eveningRule.toJson)) = .ok [eveningRule] ∧
      load (Json.utf8 (Json.compact
        (setToJson [("b", eveningRule), ("a", { effect := .forbid })]))) =
          .ok [eveningRule, { effect := .forbid }] := by
  have hbody : ∃ j, Expr.ofJson j =
      .ok (.binary .less (.value (.long 18)) (.attr .access (.var .context) "hour")) :=
    ⟨(Expr.binary .less (.value (.long 18)) (.attr .access (.var .context) "hour")).toJson, rfl⟩
  have hrule : eveningRule.WellFormed := ⟨by decide, by simpa [eveningRule] using hbody⟩
  have hforbid : WellFormed { effect := .forbid } := ⟨by decide, by simp⟩
  obtain ⟨hread, -, -, hsplit, hannotate, hload⟩ := load_round_trip
  obtain ⟨hlist, -, hset⟩ := hload Json.compact (by simp)
  obtain ⟨-, hsingle, -⟩ := hload Json.pretty (by simp)
  have hmade : ({} : Config).split [{ id := some "evening" }] =
      .ok [{ effect := .permit, annotations := [("id", "evening")] }] := rfl
  refine ⟨hrule, (hread eveningRule hrule.bodies).mpr hrule.keys,
    ⟨_, hmade, hsplit {} [{ id := some "evening" }] _ hmade⟩, ?_, ?_, ?_, ?_⟩
  · rw [(hannotate eveningRule [("id", "late"), ("note", "x"), ("id", "night")]).1]
    decide
  · rw [hlist _ (by simp [hrule]), if_pos (by decide)]
  · rw [hsingle _ hrule, if_pos (by decide)]
  · rw [hset _ (by decide) (by simp [hrule, hforbid]), if_pos (by decide)]
    rfl

end Policy

end AccessPolicy.Cedar
