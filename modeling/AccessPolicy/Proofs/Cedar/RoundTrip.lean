import AccessPolicy.Proofs.Cedar.Gather
import AccessPolicy.Proofs.Cedar.Pieces
import AccessPolicy.Proofs.Cedar.Reading
import Mathlib.Data.List.Nodup

/-!
# Policies to Cedar and back

A policy set whose policies have distinct identifiers survives the way to Cedar and back up to a
normal form. Each of the Cedar policies that one policy becomes reads back as a part of it: one
member and one group of its actions. The parts fit together and are gathered in one policy.

* `policyOf_piece`: the part that one of the Cedar policies reads back as.
* `gather_parts`: what is gathered of the parts of one policy.
* `merge_split`: what a policy set comes back as.
-/

namespace AccessPolicy.Cedar

open Outcome

/-! ## The normal form -/

/-- The actions of a policy, the granted ones first, each under its identifier. -/
def plainActions (p : AccessPolicy.Policy) : List Action :=
  (p.included ++ p.excluded).map fun a => Action.ofIdentifier a.identifier a.exclude

/-- A policy as it comes back: no member is repeated, the granted actions stand before the excluded
    ones, an asset has the form in which it is read, and an empty object is none. -/
def Config.normalForm (c : Config) (p : AccessPolicy.Policy) : AccessPolicy.Policy :=
  { p with
    subject := { p.subject with members := (principals p).eraseDups }
    actions := plainActions p
    object := objectOf ((p.object.bind Object.assetId).map c.plainAsset)
      (p.object.bind Object.pathSpec) }

/-- An action of the normal form has the identifier and the mark of one of the policy. -/
theorem exists_of_mem_plainActions {p : AccessPolicy.Policy} {a : Action}
    (h : a ∈ plainActions p) :
    ∃ b ∈ p.actions, a.identifier = b.identifier ∧ a.exclude = b.exclude := by
  obtain ⟨b, hb, rfl⟩ := List.mem_map.mp h
  refine ⟨b, ?_, identifier_ofIdentifier _ _, rfl⟩
  rcases List.mem_append.mp hb with hb | hb
  · exact (List.mem_filter.mp hb).1
  · exact (List.mem_filter.mp hb).1

theorem nodup_plainActions {p : AccessPolicy.Policy}
    (h : (p.actions.map Action.identifier).Nodup) : (plainActions p).Nodup := by
  apply List.Nodup.of_map Action.identifier
  have hids : (plainActions p).map Action.identifier =
      (p.included ++ p.excluded).map Action.identifier := by
    simp [plainActions, Function.comp_def]
  have hperm : (p.included ++ p.excluded).Perm p.actions := by
    refine List.perm_append_comm.trans ?_
    exact List.filter_append_perm Action.exclude p.actions
  rw [hids, (hperm.map Action.identifier).nodup_iff]
  exact h

/-! ## Groups of actions -/

/-- The actions that a group reads back as. -/
def ActionGroup.readBack (g : ActionGroup) : List Action :=
  g.actions.entities.map fun e => Action.ofIdentifier e.id g.excluded

namespace Config

variable {c : Config}

theorem readBack_actionScope (e : Effect) (as : List Action) (excluded : Bool) :
    (⟨e, c.actionScope as, excluded⟩ : ActionGroup).readBack =
      as.map fun a => Action.ofIdentifier a.identifier excluded := by
  unfold ActionGroup.readBack
  rw [entities_actionScope, List.map_map]
  rfl

/-- The groups together read back as all actions. -/
theorem flatMap_readBack_groups (p : AccessPolicy.Policy) :
    (c.groups p).flatMap ActionGroup.readBack = plainActions p := by
  have hincluded : p.included.map (fun a => Action.ofIdentifier a.identifier false) =
      p.included.map fun a => Action.ofIdentifier a.identifier a.exclude := by
    apply List.map_congr_left
    intro a ha
    have : a.exclude = false := by simpa using (List.mem_filter.mp ha).2
    rw [this]
  have hexcluded : p.excluded.map (fun a => Action.ofIdentifier a.identifier true) =
      p.excluded.map fun a => Action.ofIdentifier a.identifier a.exclude := by
    apply List.map_congr_left
    intro a ha
    rw [(List.mem_filter.mp ha).2]
  unfold groups plainActions
  rw [List.flatMap_append, List.map_append]
  congr 1
  · split_ifs with h
    · have : p.included = [] := by simp_all
      simp [this]
    · rw [List.flatMap_singleton, readBack_actionScope, hincluded]
  · split_ifs with h
    · have : p.excluded = [] := by simpa using h
      simp [this]
    · rw [List.flatMap_singleton, readBack_actionScope, hexcluded]

/-! ## One Cedar policy read back -/

/-- The part of a policy for one member and one group of actions, as it comes back. -/
def part (c : Config) (p : AccessPolicy.Policy) (member : String) (g : ActionGroup) :
    AccessPolicy.Policy :=
  { c.normalForm p with
    subject := { p.subject with members := [member] }
    actions := g.readBack }

/-- The annotations of a piece are read as what the policy says, with the mark of its group. -/
theorem notes_piece (p : AccessPolicy.Policy) (s : Scope) (g : ActionGroup) :
    Notes.ofAnnotations (c.piece p s g).annotations =
      .ok { notesOf p with excludes := g.excluded } := by
  unfold piece
  cases hg : g.excluded with
  | false => exact notes_annotationsFor p
  | true => exact notes_exclude p

theorem isExclusion_piece {p : AccessPolicy.Policy} (s : Scope) {g : ActionGroup}
    (hg : g ∈ c.groups p) :
    (c.piece p s g).isExclusion { notesOf p with excludes := g.excluded } = g.excluded := by
  obtain rfl | rfl := eq_of_mem_groups hg
  · -- the effect forbids only if the condition denies, which is no exclusion
    unfold Policy.isExclusion piece notesOf
    cases hcond : p.condition with
    | none => simp [Effect.ofPermit, AccessPolicy.Policy.denies, hcond]
    | some cond =>
      by_cases hdeny : cond.action = .deny
      · simp [hdeny]
      · simp [Effect.ofPermit, AccessPolicy.Policy.denies, hcond, hdeny]
  · simp [Policy.isExclusion, piece, Policy.annotate]

theorem scopeActions_group {p : AccessPolicy.Policy} {g : ActionGroup} (hg : g ∈ c.groups p) :
    ∃ ids, c.scopeActions g.actions = .ok ids ∧
      ids.map (Action.ofIdentifier · g.excluded) = g.readBack := by
  obtain rfl | rfl := eq_of_mem_groups hg
  · exact ⟨_, scopeActions_actionScope _, by rw [readBack_actionScope, List.map_map]; rfl⟩
  · exact ⟨_, scopeActions_actionScope _, by rw [readBack_actionScope, List.map_map]; rfl⟩

/-- A Cedar policy made for a member and a group of actions reads back as this part. -/
theorem policyOf_piece {p : AccessPolicy.Policy} {member : String} {s : Scope} {g : ActionGroup}
    (hs : c.memberScope member = .ok s) (hg : g ∈ c.groups p) :
    c.policyOf (c.piece p s g) = .ok (c.part p member g) := by
  obtain ⟨ids, hids, hactions⟩ := scopeActions_group hg
  have hcondition : conditionOf ((notesOf p).rule <|> ruleOf []) (notesOf p).conditionAction =
      p.condition := by
    unfold notesOf
    cases p.condition <;> rfl
  rw [policyOf_eq_ok_iff]
  refine ⟨_, member, ids, (p.object.bind Object.assetId).map c.plainAsset, notes_piece p s g,
    ?_, ?_, ?_, ?_⟩
  · rw [piece_principal]
    exact scopeMember_of_memberScope hs
  · rw [piece_action]
    exact hids
  · rw [piece_resource]
    exact scopeAsset_assetScope _
  rw [Policy.reading, isExclusion_piece s hg, hactions, piece_clauses]
  unfold part normalForm
  rw [← hcondition]
  rfl

/-! ## The parts of a policy -/

/-- The parts of a policy, in the order of the Cedar policies that it becomes. -/
def parts (c : Config) (p : AccessPolicy.Policy) : List AccessPolicy.Policy :=
  (principals p).flatMap fun m => (c.groups p).map (c.part p m)

theorem mem_parts_iff {p q : AccessPolicy.Policy} :
    q ∈ c.parts p ↔ ∃ m ∈ principals p, ∃ g ∈ c.groups p, q = c.part p m g := by
  simp [parts, eq_comm]

theorem parts_ne_nil (p : AccessPolicy.Policy) : c.parts p ≠ [] := by
  obtain ⟨m, hm⟩ := List.exists_mem_of_ne_nil _ (principals_ne_nil p)
  obtain ⟨g, hg⟩ := List.exists_mem_of_ne_nil _ (groups_ne_nil (c := c) p)
  exact List.ne_nil_of_mem (mem_parts_iff.mpr ⟨m, hm, g, hg, rfl⟩)

theorem id_of_mem_parts {p q : AccessPolicy.Policy} (h : q ∈ c.parts p) : q.id = p.id := by
  obtain ⟨m, _, g, _, rfl⟩ := mem_parts_iff.mp h
  rfl

/-- The Cedar policies of a policy read back as its parts. -/
theorem forall₂_expand {p : AccessPolicy.Policy} {qs : List Policy} (h : c.expand p = .ok qs) :
    List.Forall₂ (fun q r => c.policyOf q = .ok r) qs (c.parts p) := by
  obtain ⟨scopes, hscopes, rfl⟩ := expand_eq_ok_iff.mp h
  unfold parts
  refine List.rel_flatMap hscopes.flip ?_
  intro s m hs
  rw [List.forall₂_map_left_iff, List.forall₂_map_right_iff, List.forall₂_same]
  exact fun g hg => policyOf_piece hs hg

/-- The Cedar policies of a policy set read back as the parts of its policies. -/
theorem mapM_policyOf_split {ps : List AccessPolicy.Policy} {qs : List Policy}
    (h : c.split ps = .ok qs) : qs.mapM c.policyOf = .ok (ps.flatMap c.parts) := by
  rw [mapM_eq_ok_iff]
  induction ps generalizing qs with
  | nil =>
    rw [← Except.ok.inj h]
    exact List.Forall₂.nil
  | cons p ps ih =>
    obtain ⟨first, others, hfirst, hothers, rfl⟩ := split_cons_eq_ok_iff.mp h
    exact List.rel_append (forall₂_expand hfirst) (ih hothers)

/-- Two parts of a policy that names each action once can be merged. -/
theorem compatible_parts {p q r : AccessPolicy.Policy}
    (hactions : (p.actions.map Action.identifier).Nodup) (hq : q ∈ c.parts p)
    (hr : r ∈ c.parts p) : Compatible q r := by
  obtain ⟨m, _, g, hg, rfl⟩ := mem_parts_iff.mp hq
  obtain ⟨m', _, g', hg', rfl⟩ := mem_parts_iff.mp hr
  have hmem : ∀ g ∈ c.groups p, ∀ a ∈ g.readBack, a ∈ plainActions p := by
    intro g hg a ha
    rw [← flatMap_readBack_groups (c := c)]
    exact List.mem_flatMap.mpr ⟨g, hg, ha⟩
  refine ⟨⟨rfl, rfl, rfl, rfl, rfl⟩, ?_⟩
  intro a ha b hb hid
  obtain ⟨a', ha', haid, ha⟩ := exists_of_mem_plainActions (hmem g hg a ha)
  obtain ⟨b', hb', hbid, hb⟩ := exists_of_mem_plainActions (hmem g' hg' b hb)
  -- the policy has one action with this identifier
  have hsame : a' = b' :=
    List.inj_on_of_nodup_map hactions ha' hb' (haid.symm.trans (hid.trans hbid))
  rw [ha, hb, hsame]

/-- The union of the parts of a policy is its normal form: each member comes once for every group,
    and all actions come once for every member. -/
theorem foldl_union_parts {p r : AccessPolicy.Policy} {block : List AccessPolicy.Policy}
    (hactions : (p.actions.map Action.identifier).Nodup) (hparts : c.parts p = r :: block) :
    block.foldl union r = c.normalForm p := by
  have hmembers : (c.parts p).flatMap (fun q => q.subject.members) =
      (principals p).flatMap fun m => (c.groups p).map fun _ => m := by
    simp [parts, List.flatMap_assoc, part, List.map_eq_flatMap]
  have hreadBack : (c.parts p).flatMap AccessPolicy.Policy.actions =
      (principals p).flatMap fun _ => plainActions p := by
    simp [parts, List.flatMap_assoc, part, List.flatMap_map, flatMap_readBack_groups]
  obtain ⟨m, _, g, hg, hpart⟩ := mem_parts_iff.mp (hparts ▸ List.mem_cons_self : r ∈ c.parts p)
  have hnodup : r.subject.members.Nodup ∧ r.actions.Nodup := by
    have hall := nodup_plainActions hactions
    rw [← flatMap_readBack_groups (c := c), List.nodup_flatMap] at hall
    rw [hpart]
    exact ⟨List.nodup_singleton m, hall.1 g hg⟩
  rw [foldl_union_of_nodup hnodup.1 hnodup.2, ← hparts, hmembers, hreadBack,
    eraseDups_flatMap_map_const _ (groups_ne_nil p),
    eraseDups_flatMap_const _ (principals_ne_nil p),
    eraseDups_eq_self (nodup_plainActions hactions), hpart]
  rfl

/-- The parts of a policy with an identifier that no other policy here has are gathered in its
    normal form. -/
theorem gather_parts {p : AccessPolicy.Policy} {rest : List AccessPolicy.Policy}
    (hid : p.id.isSome) (hactions : (p.actions.map Action.identifier).Nodup)
    (hrest : ∀ q ∈ rest, p.id ≠ q.id) :
    gather (c.parts p ++ rest) = c.normalForm p :: gather rest := by
  obtain ⟨r, block, hparts⟩ := List.exists_cons_of_ne_nil (parts_ne_nil (c := c) p)
  have hids : ∀ q ∈ r :: block, q.id = p.id := fun q hq => id_of_mem_parts (hparts ▸ hq)
  have hr : r.id = p.id := hids r List.mem_cons_self
  have hjoin : ∀ q ∈ block, Joins r q := by
    intro q hq
    have hq := hids q (List.mem_cons_of_mem r hq)
    exact ⟨by rw [hq]; exact hid, hr.trans hq.symm⟩
  have hapart : ∀ q ∈ rest, ¬ Joins r q := fun q hq h => hrest q hq (hr.symm.trans h.2)
  rw [hparts, gather_block hjoin hapart, foldl_union_parts hactions hparts]

/-! ## The way back -/

theorem gather_flatMap_parts {ps : List AccessPolicy.Policy} (hids : ∀ p ∈ ps, p.id.isSome)
    (hdistinct : (ps.map AccessPolicy.Policy.id).Nodup)
    (hactions : ∀ p ∈ ps, (p.actions.map Action.identifier).Nodup) :
    gather (ps.flatMap c.parts) = ps.map c.normalForm := by
  induction ps with
  | nil => simp
  | cons p ps ih =>
    obtain ⟨hid, hids⟩ := List.forall_mem_cons.mp hids
    obtain ⟨haction, hactions⟩ := List.forall_mem_cons.mp hactions
    obtain ⟨hp, hdistinct⟩ := List.nodup_cons.mp hdistinct
    rw [List.flatMap_cons, gather_parts hid haction, ih hids hdistinct hactions, List.map_cons]
    intro q hq heq
    obtain ⟨p', hp', hq⟩ := List.mem_flatMap.mp hq
    exact hp (List.mem_map.mpr ⟨p', hp', by rw [heq, id_of_mem_parts hq]⟩)

theorem consistent_flatMap_parts {ps : List AccessPolicy.Policy}
    (hdistinct : (ps.map AccessPolicy.Policy.id).Nodup)
    (hactions : ∀ p ∈ ps, (p.actions.map Action.identifier).Nodup) :
    Consistent (ps.flatMap c.parts) := by
  unfold Consistent
  rw [List.pairwise_flatMap]
  constructor
  · intro p hp
    apply List.pairwise_of_forall_mem_list
    exact fun q hq r hr _ => compatible_parts (hactions p hp) hq hr
  · refine (List.pairwise_map.mp hdistinct).imp ?_
    intro p p' hne q hq r hr hjoin
    rw [Joins, id_of_mem_parts hq, id_of_mem_parts hr] at hjoin
    exact absurd hjoin.2 hne

/-- A policy set comes back from Cedar in normal form, policy by policy, if its policies have
    distinct identifiers and none names an action twice. -/
theorem merge_split {ps : PolicySet} {qs : List Policy} (hids : ∀ p ∈ ps, p.id.isSome)
    (hdistinct : (ps.map AccessPolicy.Policy.id).Nodup)
    (hactions : ∀ p ∈ ps, (p.actions.map Action.identifier).Nodup)
    (hsplit : c.split ps = .ok qs) : c.merge qs = .ok (ps.map c.normalForm) := by
  rw [merge_eq_ok_iff]
  exact ⟨ps.flatMap c.parts, mapM_policyOf_split hsplit,
    consistent_flatMap_parts hdistinct hactions,
    (gather_flatMap_parts hids hdistinct hactions).symm⟩

/-- Two policies with an album and without an object, as they come back. -/
theorem merge_split_album :
    let c : Config := { ns := some "PhotoApp" }
    let ps : PolicySet :=
      [{ id := some "a"
         subject := { members := ["user:alice", "group:staff", "user:alice"] }
         actions := [⟨"edit", "", true⟩, ⟨"View", "view", false⟩]
         object := some ⟨some "PhotoApp::Resource::\"album\"", none⟩
         condition := some ⟨"context.late", .deny⟩ },
       { id := some "b", object := some ⟨none, none⟩ }]
    ∃ qs, c.split ps = .ok qs ∧ c.merge qs = .ok
      [{ id := some "a"
         subject := { members := ["user:alice", "group:staff"] }
         actions := [⟨"view", "view", false⟩, ⟨"edit", "edit", true⟩]
         object := some ⟨some "album", none⟩
         condition := some ⟨"context.late", .deny⟩ },
       { id := some "b", subject := { members := ["any"] } }] := by
  intro c ps
  obtain ⟨qs, hqs⟩ : ∃ qs, c.split ps = .ok qs := ⟨_, rfl⟩
  refine ⟨qs, hqs, ?_⟩
  rw [merge_split (by decide) (by decide) (by decide) hqs]
  decide

end Config

end AccessPolicy.Cedar
