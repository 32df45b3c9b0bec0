import AccessPolicy.Proofs.Reconcile.Pairing
import Mathlib.Data.List.Forall2

/-!
# Comparing rearranged policies

A comparison does not depend on the order and the repeats of members, nor on the order of actions.
The runs over both sets and over rearranged ones go in step: at every place they have policies with
the same canonical forms available, so they choose the same partners and find the same differences.

* `Policy.Rearranges`: policies that agree but for the order and the repeats of members and the
  order of actions.
* `Placed.Corresponds`: what two runs in step have available.
* `available_corresponds`: the runs stay in step.
* `reconcile_rearranged`: comparisons of rearranged sets.
-/

namespace AccessPolicy

/-! ## Two policies -/

namespace Policy

/-- Policies that agree but for the order and the repeats of members and the order of actions. -/
structure Rearranges (p q : Policy) : Prop where
  id_eq : p.id = q.id
  info_eq : p.info = q.info
  type_eq : p.subject.type = q.subject.type
  providerId_eq : p.subject.providerId = q.subject.providerId
  mem_members_iff : ∀ m, m ∈ p.subject.members ↔ m ∈ q.subject.members
  actions_perm : p.actions.Perm q.actions
  object_eq : p.object = q.object
  condition_eq : p.condition = q.condition

variable {p p' q q' : Policy}

theorem Rearranges.refl (p : Policy) : p.Rearranges p :=
  ⟨rfl, rfl, rfl, rfl, fun _ => Iff.rfl, .refl _, rfl, rfl⟩

theorem Rearranges.equivalent (h : p.Rearranges q) : p.equivalent q :=
  equivalent_iff.mpr ⟨h.id_eq, h.info_eq, h.object_eq, h.condition_eq, h.type_eq, h.providerId_eq,
    h.mem_members_iff, h.actions_perm⟩

theorem equivalent_eq_of_equivalent (hp : p.equivalent p') (hq : q.equivalent q') :
    p.equivalent q = p'.equivalent q' := by
  unfold Policy.equivalent
  rw [differences_eq_of_equivalent hp hq]

theorem changeTo_eq_of_equivalent (hp : p.equivalent p') (hq : q.equivalent q') :
    p.changeTo q = p'.changeTo q' := by
  unfold changeTo
  rw [equivalent_eq_of_equivalent hp hq, differences_eq_of_equivalent hp hq]

end Policy

theorem Entry.ofPolicy_eq_of_equivalent {p q : Policy} (h : p.equivalent q) (index : Nat)
    (change : Change) : Entry.ofPolicy index p change = Entry.ofPolicy index q change := by
  unfold Entry.ofPolicy Policy.label
  rw [(Policy.equivalent_iff.mp h).1]

/-- Searches of lists that agree place by place find elements that agree. -/
theorem find?_forall₂ {α : Type} {r : α → α → Prop} {f g : α → Bool} {xs ys : List α}
    (h : List.Forall₂ r xs ys) (hfg : ∀ x y, r x y → f x = g y) :
    Option.Rel r (xs.find? f) (ys.find? g) := by
  induction h with
  | nil => exact .none
  | @cons x y xs ys hxy _ ih =>
    rw [List.find?_cons, List.find?_cons, hfg x y hxy]
    cases g y with
    | true => exact .some hxy
    | false => exact ih

namespace Placed

/-! ## One policy -/

/-- Policies at the same place that do not differ. -/
def SamePlace (q q' : Nat × Policy) : Prop := q.1 = q'.1 ∧ q.2.equivalent q'.2

/-- What is available in two runs, place by place. -/
def Corresponds (rest rest' : Placed) : Prop := List.Forall₂ SamePlace rest rest'

theorem Corresponds.filter {rest rest' : Placed} (hrest : Corresponds rest rest')
    {f g : Nat × Policy → Bool} (hfg : ∀ q q', SamePlace q q' → f q = g q') :
    Corresponds (rest.filter f) (rest'.filter g) :=
  List.rel_filter (fun q q' hq => Bool.eq_iff_iff.mp (hfg q q' hq)) hrest

section Step

variable {rest rest' : Placed} {p p' : Policy} (hrest : Corresponds rest rest')
  (hp : p.equivalent p')
include hrest hp

theorem candidates_corresponds : Corresponds (rest.candidates p) (rest'.candidates p') :=
  hrest.filter fun _ _ hq => Policy.isSame_eq_of_equivalent hp hq.2

/-- The partners are at the same place. -/
theorem partner?_corresponds : Option.Rel SamePlace (rest.partner? p) (rest'.partner? p') := by
  have hcandidates := candidates_corresponds hrest hp
  have hfind : Option.Rel SamePlace
      ((rest.candidates p).find? fun q => p.equivalent q.2)
      ((rest'.candidates p').find? fun q => p'.equivalent q.2) :=
    find?_forall₂ hcandidates fun _ _ hq => Policy.equivalent_eq_of_equivalent hp hq.2
  rw [partner?_eq, partner?_eq]
  generalize (rest.candidates p).find? _ = found, (rest'.candidates p').find? _ = found' at hfind ⊢
  cases hfind with
  | some hq => exact .some hq
  | none =>
    -- no candidate is without a difference, so both runs take the first
    generalize rest.candidates p = candidates, rest'.candidates p' = candidates' at hcandidates ⊢
    cases hcandidates with
    | nil => exact .none
    | cons hq _ => exact .some hq

theorem changeOf_corresponds : rest.changeOf p = rest'.changeOf p' := by
  have hpartner := partner?_corresponds hrest hp
  unfold changeOf
  generalize rest.partner? p = partner, rest'.partner? p' = partner' at hpartner ⊢
  cases hpartner with
  | some hq => exact Policy.changeTo_eq_of_equivalent hp hq.2
  | none => rfl

theorem after_corresponds : Corresponds (rest.after p) (rest'.after p') := by
  have hpartner := partner?_corresponds hrest hp
  unfold after
  generalize rest.partner? p = partner, rest'.partner? p' = partner' at hpartner ⊢
  cases hpartner with
  | some hq => exact hrest.filter fun r r' hr => by rw [hq.1, hr.1]
  | none => exact hrest

end Step

/-! ## All policies -/

section Run

variable {rest rest' : Placed} {ps ps' : List Policy}
  (hps : List.Forall₂ (fun p p' => p.equivalent p') ps ps')
include hps

theorem available_corresponds (hrest : Corresponds rest rest') (i : Nat) :
    Corresponds (rest.available ps i) (rest'.available ps' i) := by
  have hstep : Relator.LiftFun Corresponds
      (Relator.LiftFun (fun p p' : Policy => p.equivalent p') Corresponds) after after :=
    fun _ _ h _ _ hp => after_corresponds h hp
  exact List.rel_foldl hstep hrest (List.forall₂_take i hps)

theorem ofList_corresponds (index : Nat) : Corresponds (ofList index ps) (ofList index ps') := by
  induction hps generalizing index with
  | nil => exact .nil
  | cons hp _ ih => exact .cons ⟨rfl, hp⟩ (ih (index + 1))

end Run

theorem added_corresponds {rest rest' : Placed} (hrest : Corresponds rest rest') :
    rest.added = rest'.added := by
  induction hrest with
  | nil => rfl
  | cons hq _ ih =>
    unfold added at ih ⊢
    rw [List.map_cons, List.map_cons, hq.1, Entry.ofPolicy_eq_of_equivalent hq.2, ih]

end Placed

/-! ## Comparisons -/

namespace PolicySet

variable {source source' target target' : PolicySet}

theorem compare_eq_of_forall₂
    (hsource : List.Forall₂ (fun p p' => p.equivalent p') source source')
    (htarget : List.Forall₂ (fun q q' => q.equivalent q') target target') :
    compare source target = compare source' target' := by
  have havailable := Placed.available_corresponds hsource (Placed.ofList_corresponds htarget 0)
  have hlength := hsource.length_eq
  have hfirst :
      (source.mapIdx fun i p =>
        Entry.ofPolicy i p (((Placed.ofList 0 target).available source i).changeOf p)) =
      source'.mapIdx fun i p =>
        .ofPolicy i p (((Placed.ofList 0 target').available source' i).changeOf p) := by
    refine List.ext_getElem (by simpa using hlength) fun i hi hi' => ?_
    rw [List.length_mapIdx] at hi hi'
    have hp : source[i].equivalent source'[i] := hsource.get hi hi'
    rw [List.getElem_mapIdx, List.getElem_mapIdx, Placed.changeOf_corresponds (havailable i) hp,
      Entry.ofPolicy_eq_of_equivalent hp]
  rw [compare_eq, compare_eq, hfirst, Placed.added_corresponds (havailable source.length), hlength]

/-- **Rearranged policies.** Where the members of policies are reordered or repeated and their
    actions reordered, in either set, a comparison has the same entries: the same places, labels,
    changes and parts that differ, in the same order. -/
theorem reconcile_rearranged (hsource : List.Forall₂ Policy.Rearranges source source')
    (htarget : List.Forall₂ Policy.Rearranges target target') (changesOnly : Bool) :
    reconcile source' target' changesOnly = reconcile source target changesOnly := by
  have hcompare : compare source target = compare source' target' :=
    compare_eq_of_forall₂ (hsource.imp fun _ _ h => h.equivalent)
      (htarget.imp fun _ _ h => h.equivalent)
  unfold reconcile
  rw [hcompare]

/-- A member is repeated where a condition is new, and a rearranged policy has moved. -/
theorem reconcile_rearranged_viewing :
    let viewing : Policy :=
      { subject := { members := ["user:alice"] }, actions := [⟨"view", "view", false⟩] }
    let viewing' : Policy := { viewing with subject := { members := ["user:alice", "user:alice"] } }
    let inTime : Policy := { viewing with condition := some ⟨"context.late", .deny⟩ }
    let editing : Policy :=
      { id := some "editing", subject := { members := ["user:bob", "user:alice"] }
        actions := [⟨"view", "view", false⟩, ⟨"edit", "edit", false⟩] }
    let editing' : Policy :=
      { id := some "editing", subject := { members := ["user:alice", "user:bob", "user:alice"] }
        actions := [⟨"edit", "edit", false⟩, ⟨"view", "view", false⟩] }
    viewing.Rearranges viewing' ∧ editing.Rearranges editing' ∧
      reconcile [viewing'] [inTime] false = [⟨0, "#0", .changed [.condition]⟩] ∧
      reconcile [editing', viewing'] [inTime, editing] true =
        reconcile [editing, viewing] [inTime, editing] true := by
  intro viewing viewing' inTime editing editing'
  have hviewing : viewing.Rearranges viewing' :=
    ⟨rfl, rfl, rfl, rfl, fun m => by simp [viewing, viewing'], .refl _, rfl, rfl⟩
  have hediting : editing.Rearranges editing' :=
    ⟨rfl, rfl, rfl, rfl, fun m => by simp [editing, editing', or_comm], by decide, rfl, rfl⟩
  have hchanged := reconcile_rearranged (.cons hviewing .nil) (.cons (.refl inTime) .nil) false
  refine ⟨hviewing, hediting, hchanged.trans (by decide +kernel), ?_⟩
  exact reconcile_rearranged (.cons hediting (.cons hviewing .nil))
    (.cons (.refl inTime) (.cons (.refl editing) .nil)) true

end PolicySet

end AccessPolicy
