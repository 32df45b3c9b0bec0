import AccessPolicy.Policy.Document
import AccessPolicy.Proofs.Json.Record
import AccessPolicy.Proofs.Json.RoundTrip

/-!
# Policies saved and loaded

The document of a policy leaves out what is absent or empty. Each part that is left out stands for
what it is read as, so every part of a policy is read back from its document. A set is loaded from
its text unless a policy has neither actions nor an object, and then the first such policy is
reported.

* `Action.holds`, `Condition.holds`, `Meta.holds`, `Subject.holds`, `Object.holds`,
  `Policy.holds`: the document of each part holds it.
* `PolicySet.ofItems_map_toJson`: the documents of policies in order.
* `PolicySet.load_save`: what is loaded from the text of a set.
* `PolicySet.load_save_eq_ok_iff`: the sets that are loaded from their text.
-/

namespace AccessPolicy

open Json Json.Decode.Record

/-! ## Parts of a policy -/

theorem Action.holds (a : Action) : Holds Action.ofJson 1 a.toJson a := by
  have hname := fills_field (s := {}) Action.record "name" (fun name => { name }) rfl
    (holds_string 0 a.name)
  have huri := fills_field (s := { name := a.name }) Action.record "actionUri"
    (fun uri => { name := a.name, uri }) rfl (holds_string 0 a.uri)
  have hexclude : Action.record.Fills ["exclude"] 0 ⟨a.name, a.uri, false⟩
      (if a.exclude then [("exclude", .bool true)] else []) ⟨a.name, a.uri, a.exclude⟩ := by
    cases a.exclude with
    | false => exact fills_nil ["exclude"]
    | true =>
      exact fills_field Action.record "exclude" (Action.mk a.name a.uri) rfl (holds_bool 0 true)
  exact ((hname.append huri).append hexclude).holds (by decide) rfl

theorem ConditionAction.holds (a : ConditionAction) :
    Holds ConditionAction.ofJson 0 a.toJson a := by
  refine ⟨plain_string a.name, Nat.zero_le 0, ?_⟩
  cases a <;> rfl

theorem Condition.holds (c : Condition) : Holds Condition.ofJson 1 c.toJson c := by
  have hrule := fills_field (s := (none, .allow)) Condition.record "rule"
    (fun rule => (some rule, .allow)) rfl (holds_string 0 c.rule)
  have haction := fills_field (s := (some c.rule, .allow)) Condition.record "action"
    (fun action => (some c.rule, action)) rfl c.action.holds
  exact (hrule.append haction).holds (by decide) rfl

theorem Meta.toJson_eq (m : Meta) :
    m.toJson = .object (optionField "version" .string m.version ++ optionField "date" .string m.date
      ++ optionField "description" .string m.description
      ++ optionField "applicationId" .string m.applicationId
      ++ optionField "providerType" .string m.providerType
      ++ optionField "etag" .string m.etag) := by
  have hslot : ∀ s : String × Option String,
      ((s.2.map (s.1, ·)).map fun f => (f.1, Json.string f.2)).toList =
        optionField s.1 .string s.2 := by
    rintro ⟨name, value⟩
    cases value <;> rfl
  unfold toJson fields
  rw [List.map_filterMap, List.filterMap_eq_flatMap_toList]
  simp only [hslot]
  simp [slots]

theorem Meta.holds (m : Meta) : Holds Meta.ofJson 1 m.toJson m := by
  have hversion := fills_optString (n := 0) Meta.record "version" (fun v => { version := v })
    (fun _ => rfl) m.version
  have hdate := fills_optString (n := 0) Meta.record "date"
    (fun v => { version := m.version, date := v }) (fun _ => rfl) m.date
  have hdescription := fills_optString (n := 0) Meta.record "description"
    (fun v => { version := m.version, date := m.date, description := v }) (fun _ => rfl)
    m.description
  have happlication := fills_optString (n := 0) Meta.record "applicationId"
    (fun v => { m with applicationId := v, providerType := none, etag := none }) (fun _ => rfl)
    m.applicationId
  have hprovider := fills_optString (n := 0) Meta.record "providerType"
    (fun v => { m with providerType := v, etag := none }) (fun _ => rfl) m.providerType
  have hetag := fills_optString (n := 0) Meta.record "etag" (fun v => { m with etag := v })
    (fun _ => rfl) m.etag
  rw [Meta.toJson_eq]
  exact (((((hversion.append hdate).append hdescription).append happlication).append
    hprovider).append hetag).holds (by decide) rfl

theorem Subject.holds (s : Subject) : Holds Subject.ofJson 2 s.toJson s := by
  have htype := fills_optString (n := 1) Subject.record "type" (fun v => { type := v })
    (fun _ => rfl) s.type
  have hprovider := fills_optString (n := 1) Subject.record "providerId"
    (fun v => { s with providerId := v, members := [] }) (fun _ => rfl) s.providerId
  have hmembers : Subject.record.Fills ["members"] 1 { s with members := [] }
      (if s.members.isEmpty then [] else [("members", Json.strings s.members)]) s := by
    split_ifs with hempty
    · rw [List.isEmpty_iff] at hempty
      have hs : { s with members := [] } = s := by rw [← hempty]
      rw [hs]
      exact fills_nil ["members"]
    · exact fills_field Subject.record "members" (fun members => { s with members }) rfl
        (holds_list fun m _ => holds_string 0 m)
  exact ((htype.append hprovider).append hmembers).holds (by decide) rfl

theorem Object.holds (o : Object) : Holds Object.ofJson 1 o.toJson o := by
  have hasset := fills_optString (n := 0) Object.record "assetId" (fun v => { assetId := v })
    (fun _ => rfl) o.assetId
  have hpath := fills_optString (n := 0) Object.record "pathSpec"
    (fun v => { o with pathSpec := v }) (fun _ => rfl) o.pathSpec
  exact (hasset.append hpath).holds (by decide) rfl

/-! ## Policies -/

theorem Policy.holds (p : Policy) : Holds Policy.ofJson 3 p.toJson p := by
  have hid := fills_optString (n := 2) Policy.record "id" (fun v => { id := v }) (fun _ => rfl) p.id
  have hinfo : Policy.record.Fills ["meta"] 2 { id := p.id }
      (if p.info.isEmpty then [] else [("meta", p.info.toJson)])
      { id := p.id, info := p.info } := by
    split_ifs with hempty
    · have hinfo : p.info = {} := of_decide_eq_true hempty
      rw [hinfo]
      exact fills_nil ["meta"]
    · exact fills_field Policy.record "meta" (fun info => { id := p.id, info }) rfl
        (p.info.holds.mono (by omega))
  have hsubject := fills_field (s := { id := p.id, info := p.info }) Policy.record "subject"
    (fun subject => { id := p.id, info := p.info, subject }) rfl p.subject.holds
  have hactions := fills_field (s := { id := p.id, info := p.info, subject := p.subject })
    Policy.record "actions" (fun actions => { p with actions, object := none, condition := none })
    rfl (holds_list fun a (_ : a ∈ p.actions) => a.holds)
  have hobject := fills_optionField (n := 2) Policy.record "object"
    (fun v => { p with object := v, condition := none }) (fun _ => rfl)
    (fun o : Object => (o.holds.mono (by omega)).option (by simp [Object.toJson])) p.object
  have hcondition := fills_optionField (n := 2) Policy.record "condition"
    (fun v => { p with condition := v }) (fun _ => rfl)
    (fun c : Condition => (c.holds.mono (by omega)).option (by simp [Condition.toJson]))
    p.condition
  have hsteps := ((((hid.append hinfo).append (hsubject.append hactions)).append hobject).append
    hcondition)
  exact hsteps.holds (by decide) rfl

/-! ## Policy sets -/

theorem Policy.isActionable_iff {p : Policy} :
    p.isActionable = true ↔ ¬ (p.actions = [] ∧ p.object = none) := by
  unfold isActionable
  cases p.actions <;> cases p.object <;> simp

/-- A policy without actions and without an object cannot be loaded. -/
theorem Policy.ofItem_toJson (index : Nat) (p : Policy) :
    ofItem index p.toJson =
      if p.actions = [] ∧ p.object = none then
        .error (.parse ("policy #" ++ toString index ++ ": a policy needs actions or an object"))
      else .ok p := by
  have hread : ofJson p.toJson = .ok p := p.holds.read_eq
  have hreason : reasonAt index "a policy needs actions or an object" =
      "policy #" ++ toString index ++ ": a policy needs actions or an object" := by
    rw [reasonAt, String.append_assoc]
    rfl
  obtain ⟨fields, hfields⟩ : ∃ fields, p.toJson = .object fields := ⟨_, rfl⟩
  rw [hfields] at hread ⊢
  rw [ofItem, hread]
  by_cases h : p.actions = [] ∧ p.object = none
  · have hnot : ¬ p.isActionable = true := fun hp => isActionable_iff.mp hp h
    simp only [if_pos h, if_neg hnot, hreason]
  · simp only [if_neg h, if_pos (isActionable_iff.mpr h)]

namespace PolicySet

/-- Documents of policies are read in order, up to the first of one that cannot be loaded. -/
theorem ofItems_map_toJson (index : Nat) (ps : PolicySet) :
    ofItems index (ps.map Policy.toJson) =
      match ps.findIdx? fun p => p.actions = [] ∧ p.object = none with
      | none => .ok ps
      | some i => .error (.parse
          ("policy #" ++ toString (index + i) ++ ": a policy needs actions or an object")) := by
  induction ps generalizing index with
  | nil => rfl
  | cons p ps ih =>
    rw [List.map_cons, ofItems, Policy.ofItem_toJson, ih, List.findIdx?_cons]
    by_cases h : p.actions = [] ∧ p.object = none
    · simp [h, bind, Except.bind]
    · cases hfound : ps.findIdx? fun p => p.actions = [] ∧ p.object = none with
      | none => simp [h, bind, Except.bind, pure, Except.pure]
      | some i => simp [h, bind, Except.bind, Nat.add_assoc, Nat.add_comm 1 i]

theorem plain_toJson (ps : PolicySet) : (toJson ps).Plain :=
  plain_array (List.forall_mem_map.mpr fun p _ => p.holds.plain)

/-- A document of policies has at most four levels. -/
theorem depth_toJson_le (ps : PolicySet) : (toJson ps).depth ≤ 4 :=
  Nat.succ_le_succ (itemsDepth_le (List.forall_mem_map.mpr fun p _ => p.holds.depth_le))

/-- The document of a set is read from its text. -/
theorem readBytes_save (ps : PolicySet) : readBytes (utf8 (save ps)) = some (toJson ps) := by
  have hlevels : (toJson ps).depth ≤ maxDepth := (depth_toJson_le ps).trans (by decide)
  have hpretty : pretty ∈ [compact, pretty] := List.mem_cons_of_mem _ List.mem_cons_self
  have hsave : save ps = pretty (toJson ps) := rfl
  rw [hsave, readBytes_written hpretty (plain_toJson ps), if_pos hlevels]

/-- What is loaded from the text of a set are the items of its document. -/
theorem load_save_eq_ofItems (ps : PolicySet) :
    load (utf8 (save ps)) = ofItems 0 (ps.map Policy.toJson) := by
  rw [load, readBytes_save]
  rfl

/-- **Saving and loading.** A set of policies is loaded from its text, in order, if every policy has
    actions or an object. Otherwise the first policy that has neither is reported by its place. -/
theorem load_save (ps : PolicySet) :
    load (utf8 (save ps)) =
      match ps.findIdx? fun p => p.actions = [] ∧ p.object = none with
      | none => .ok ps
      | some i => .error
          ⟨.parse, some ("policy #" ++ toString i ++ ": a policy needs actions or an object")⟩ := by
  rw [load_save_eq_ofItems, ofItems_map_toJson]
  simp only [Nat.zero_add]
  rfl

/-- A policy with actions and one with an empty object come back. With two policies behind them that
    have neither, the first of these is named. -/
theorem load_save_idle :
    let viewing : Policy :=
      { id := some "p", subject := { members := ["user:alice"] }, actions := [⟨"view", "", true⟩]
        condition := some ⟨"context.late", .deny⟩ }
    let blank : Policy := { info := { version := some "1" }, object := some {} }
    let idle : Policy := { subject := { members := ["any"] } }
    load (utf8 (save [viewing, blank])) = .ok [viewing, blank] ∧
      load (utf8 (save [viewing, blank, idle, idle])) =
        .error ⟨.parse, some "policy #2: a policy needs actions or an object"⟩ := by
  intro viewing blank idle
  exact ⟨(load_save _).trans (by decide), (load_save _).trans (by decide)⟩

/-- A set is loaded from its text exactly if all of its policies are actionable. -/
theorem load_save_eq_ok_iff (ps : PolicySet) :
    load (utf8 (save ps)) = .ok ps ↔ ∀ p ∈ ps, p.isActionable = true := by
  rw [load_save_eq_ofItems, ofItems_map_toJson]
  simp only [Policy.isActionable_iff]
  cases hfound : ps.findIdx? fun p => p.actions = [] ∧ p.object = none with
  | none => simpa [List.findIdx?_eq_none_iff] using hfound
  | some i =>
    obtain ⟨hi, hneither, -⟩ := List.findIdx?_eq_some_iff_getElem.mp hfound
    simp only [reduceCtorEq, false_iff]
    exact fun hall => hall ps[i] (List.getElem_mem hi) (of_decide_eq_true hneither)

end PolicySet

end AccessPolicy
