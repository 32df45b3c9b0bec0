import AccessPolicy.Reconcile
import Mathlib.Data.List.Perm.Basic
import Mathlib.Data.List.Sort
import Mathlib.Data.String.Basic

/-!
# Canonical policies

Two policies differ in no part exactly if they have the same canonical form, in which the members
stand in order without repeats and the actions in order. So members count as a set and actions
count as a multiset.

* `normalized_eq_iff`: subjects with the same normal form.
* `sortedActions_eq_iff`: policies with the same actions in order.
* `equivalent_iff_canonical`: policies that differ in no part.
-/

namespace AccessPolicy

/-! ## Erasing repeats in a row -/

section EraseReps

variable {α : Type}

theorem eraseRepsBy_loop_eq (r : α → α → Bool) (a : α) (as acc : List α) :
    List.eraseRepsBy.loop r a as acc = acc.reverse ++ List.eraseRepsBy.loop r a as [] := by
  induction as generalizing a acc with
  | nil => simp [List.eraseRepsBy.loop]
  | cons b as ih =>
    unfold List.eraseRepsBy.loop
    cases r a b with
    | true => exact ih a acc
    | false =>
      change List.eraseRepsBy.loop r b as (a :: acc) =
        acc.reverse ++ List.eraseRepsBy.loop r b as [a]
      rw [ih b (a :: acc), ih b [a], List.reverse_cons, List.append_assoc, List.reverse_singleton]

variable [DecidableEq α]

theorem eraseReps_cons_cons (a b : α) (as : List α) :
    (a :: b :: as).eraseReps = if a = b then (b :: as).eraseReps else a :: (b :: as).eraseReps := by
  change List.eraseRepsBy.loop _ a (b :: as) [] = _
  unfold List.eraseRepsBy.loop
  split_ifs with h
  · subst h
    rw [beq_self_eq_true]
    rfl
  · rw [beq_eq_false_iff_ne.mpr h]
    exact eraseRepsBy_loop_eq _ b as [a]

@[simp]
theorem mem_eraseReps {x : α} {as : List α} : x ∈ as.eraseReps ↔ x ∈ as := by
  induction as with
  | nil => rfl
  | cons a as ih =>
    cases as with
    | nil => rfl
    | cons b as =>
      rw [eraseReps_cons_cons]
      split_ifs with h
      · rw [ih, h, List.mem_cons (a := x) (b := b) (l := b :: as), List.mem_cons]
        simp
      · rw [List.mem_cons, ih, List.mem_cons (b := a)]

end EraseReps

/-- Texts in order, without repeats in a row, are in strict order. -/
theorem pairwise_lt_eraseReps {as : List String} (h : as.Pairwise (· ≤ ·)) :
    as.eraseReps.Pairwise (· < ·) := by
  induction as with
  | nil => exact List.Pairwise.nil
  | cons a as ih =>
    obtain ⟨ha, has⟩ := List.pairwise_cons.mp h
    cases as with
    | nil => exact List.pairwise_singleton _ a
    | cons b as =>
      rw [eraseReps_cons_cons]
      split_ifs with hab
      · exact ih has
      · refine List.pairwise_cons.mpr ⟨fun c hc => ?_, ih has⟩
        have hlt : a < b := by
          rw [← String.not_le]
          exact fun hba => hab (String.le_antisymm (ha b List.mem_cons_self) hba)
        rcases List.mem_cons.mp (mem_eraseReps.mp hc) with rfl | hc
        · exact hlt
        · have hbc : b ≤ c := (List.pairwise_cons.mp has).1 c hc
          rw [← String.not_le] at hlt ⊢
          exact fun hca => hlt (String.le_trans hbc hca)

/-! ## Subjects -/

namespace Subject

theorem pairwise_normalized (s : Subject) : s.normalized.members.Pairwise (· < ·) := by
  let le (a b : String) : Bool := decide (a ≤ b)
  have htrans : ∀ a b c, le a b → le b c → le a c := by
    intro a b c hab hbc
    exact decide_eq_true (String.le_trans (of_decide_eq_true hab) (of_decide_eq_true hbc))
  have htotal : ∀ a b, le a b || le b a := by
    intro a b
    rw [Bool.or_eq_true, decide_eq_true_eq, decide_eq_true_eq]
    exact String.le_total a b
  apply pairwise_lt_eraseReps
  exact (List.pairwise_mergeSort htrans htotal s.members).imp fun hab => of_decide_eq_true hab

@[simp]
theorem mem_normalized {s : Subject} {m : String} : m ∈ s.normalized.members ↔ m ∈ s.members := by
  unfold normalized
  rw [mem_eraseReps, List.mem_mergeSort]

/-- Subjects have one normal form if they differ only in the order and the repeats of members. -/
theorem normalized_eq_iff {s t : Subject} :
    s.normalized = t.normalized ↔
      s.type = t.type ∧ s.providerId = t.providerId ∧ ∀ m, m ∈ s.members ↔ m ∈ t.members := by
  constructor
  · intro h
    have htype : s.normalized.type = t.normalized.type := by rw [h]
    have hprovider : s.normalized.providerId = t.normalized.providerId := by rw [h]
    refine ⟨htype, hprovider, fun m => ?_⟩
    rw [← mem_normalized, h, mem_normalized]
  · rintro ⟨htype, hprovider, hmembers⟩
    have hsame : s.normalized.members = t.normalized.members := by
      refine List.Pairwise.eq_of_mem_iff s.pairwise_normalized t.pairwise_normalized fun m => ?_
      rw [mem_normalized, mem_normalized]
      exact hmembers m
    calc s.normalized = ⟨s.type, s.providerId, s.normalized.members⟩ := rfl
      _ = ⟨t.type, t.providerId, t.normalized.members⟩ := by rw [htype, hprovider, hsame]
      _ = t.normalized := rfl

end Subject

/-! ## Actions -/

namespace Action

theorem le_iff {a b : Action} :
    a.le b ↔ a.name < b.name ∨ a.name = b.name ∧
      (a.uri < b.uri ∨ a.uri = b.uri ∧ (a.exclude = true → b.exclude = true)) := by
  unfold le
  by_cases hname : a.name = b.name
  · by_cases huri : a.uri = b.uri
    · cases a.exclude <;> simp [hname, huri]
    · simp [hname, huri]
  · simp [hname]

theorem le_trans {a b c : Action} (hab : a.le b) (hbc : b.le c) : a.le c := by
  rw [le_iff] at *
  rcases hab with hab | ⟨hab, hab'⟩
  · rcases hbc with hbc | ⟨hbc, -⟩
    · exact Or.inl (String.lt_trans hab hbc)
    · exact Or.inl (hbc ▸ hab)
  · rw [hab]
    rcases hbc with hbc | ⟨hbc, hbc'⟩
    · exact Or.inl hbc
    · refine Or.inr ⟨hbc, ?_⟩
      rcases hab' with hab' | ⟨hab', hexclude⟩
      · rcases hbc' with hbc' | ⟨hbc', -⟩
        · exact Or.inl (String.lt_trans hab' hbc')
        · exact Or.inl (hbc' ▸ hab')
      · rw [hab']
        exact hbc'.imp_right fun h => ⟨h.1, fun he => h.2 (hexclude he)⟩

theorem le_total (a b : Action) : a.le b ∨ b.le a := by
  rw [le_iff, le_iff]
  rcases lt_trichotomy a.name b.name with h | h | h
  · exact Or.inl (Or.inl h)
  · rcases lt_trichotomy a.uri b.uri with h' | h' | h'
    · exact Or.inl (Or.inr ⟨h, Or.inl h'⟩)
    · cases hexclude : b.exclude with
      | true => exact Or.inl (Or.inr ⟨h, Or.inr ⟨h', fun _ => rfl⟩⟩)
      | false => exact Or.inr (Or.inr ⟨h.symm, Or.inr ⟨h'.symm, fun he => by cases he⟩⟩)
    · exact Or.inr (Or.inr ⟨h.symm, Or.inl h'⟩)
  · exact Or.inr (Or.inl h)

theorem le_antisymm {a b : Action} (hab : a.le b) (hba : b.le a) : a = b := by
  rw [le_iff] at *
  have hname : a.name = b.name := by
    rcases hab with h | h
    · rcases hba with h' | h'
      · exact absurd (String.lt_trans h h') (String.lt_irrefl _)
      · exact h'.1.symm
    · exact h.1
  have hab := (hab.resolve_left (hname ▸ String.lt_irrefl _)).2
  have hba := (hba.resolve_left (hname ▸ String.lt_irrefl _)).2
  have huri : a.uri = b.uri := by
    rcases hab with h | h
    · rcases hba with h' | h'
      · exact absurd (String.lt_trans h h') (String.lt_irrefl _)
      · exact h'.1.symm
    · exact h.1
  have hab := (hab.resolve_left (huri ▸ String.lt_irrefl _)).2
  have hba := (hba.resolve_left (huri ▸ String.lt_irrefl _)).2
  calc a = ⟨a.name, a.uri, a.exclude⟩ := rfl
    _ = ⟨b.name, b.uri, b.exclude⟩ := by rw [hname, huri, Bool.eq_iff_iff.mpr ⟨hab, hba⟩]
    _ = b := rfl

end Action

namespace Policy

/-- Policies have the same actions in order if their actions differ only in order. -/
theorem sortedActions_eq_iff {p q : Policy} :
    p.sortedActions = q.sortedActions ↔ p.actions.Perm q.actions := by
  unfold sortedActions
  constructor
  · intro h
    have hp := List.mergeSort_perm p.actions Action.le
    rw [h] at hp
    exact hp.symm.trans (List.mergeSort_perm q.actions Action.le)
  · intro h
    have hsorted : ∀ as : List Action,
        (as.mergeSort Action.le).Pairwise fun a b => a.le b = true :=
      List.pairwise_mergeSort (fun _ _ _ => Action.le_trans)
        (fun a b => by rw [Bool.or_eq_true]; exact Action.le_total a b)
    refine List.Perm.eq_of_pairwise (fun _ _ _ _ => Action.le_antisymm) (hsorted _) (hsorted _) ?_
    exact ((List.mergeSort_perm _ _).trans h).trans (List.mergeSort_perm _ _).symm

/-! ## Policies -/

/-- The policy with its members in order, each once, and its actions in order. -/
def canonical (p : Policy) : Policy :=
  { p with subject := p.subject.normalized, actions := p.sortedActions }

theorem differences_eq_nil_iff {p q : Policy} :
    p.differences q = [] ↔
      p.id = q.id ∧ p.info = q.info ∧ p.subject.normalized = q.subject.normalized ∧
        p.sortedActions = q.sortedActions ∧ p.object = q.object ∧ p.condition = q.condition := by
  unfold differences PolicyField.all
  rw [List.filter_eq_nil_iff]
  simp [differsIn]

theorem equivalent_iff_canonical {p q : Policy} : p.equivalent q ↔ p.canonical = q.canonical := by
  unfold equivalent canonical
  rw [List.isEmpty_iff, differences_eq_nil_iff, Policy.mk.injEq]

/-- Policies that differ in no part are equal but for the order and the repeats of members and the
    order of actions. -/
theorem equivalent_iff {p q : Policy} :
    p.equivalent q ↔
      p.id = q.id ∧ p.info = q.info ∧ p.object = q.object ∧ p.condition = q.condition ∧
        p.subject.type = q.subject.type ∧ p.subject.providerId = q.subject.providerId ∧
        (∀ m, m ∈ p.subject.members ↔ m ∈ q.subject.members) ∧ p.actions.Perm q.actions := by
  unfold equivalent
  rw [List.isEmpty_iff, differences_eq_nil_iff, Subject.normalized_eq_iff, sortedActions_eq_iff]
  constructor
  · rintro ⟨hid, hinfo, ⟨htype, hprovider, hmembers⟩, hactions, hobject, hcondition⟩
    exact ⟨hid, hinfo, hobject, hcondition, htype, hprovider, hmembers, hactions⟩
  · rintro ⟨hid, hinfo, hobject, hcondition, htype, hprovider, hmembers, hactions⟩
    exact ⟨hid, hinfo, ⟨htype, hprovider, hmembers⟩, hactions, hobject, hcondition⟩

/-- Policies that differ in no part are the same policy. -/
theorem isSame_of_equivalent {p q : Policy} (h : p.equivalent q) : p.isSame q := by
  unfold equivalent at h
  rw [List.isEmpty_iff, differences_eq_nil_iff] at h
  obtain ⟨hid, -, hsubject, hactions, hobject, -⟩ := h
  unfold isSame
  rw [hid]
  cases q.id with
  | some id => simp
  | none => simp [sameStructure, hsubject, hactions, hobject]

section Congruence

variable {p p' q q' : Policy} (hp : p.equivalent p') (hq : q.equivalent q')
include hp hq

/-- Whether two policies are the same policy only depends on their canonical forms. -/
theorem isSame_eq_of_equivalent : p.isSame q = p'.isSame q' := by
  unfold equivalent at hp hq
  rw [List.isEmpty_iff, differences_eq_nil_iff] at hp hq
  obtain ⟨hid, -, hsubject, hactions, hobject, -⟩ := hp
  obtain ⟨hid', -, hsubject', hactions', hobject', -⟩ := hq
  unfold isSame sameStructure
  rw [hid, hsubject, hactions, hobject, hid', hsubject', hactions', hobject']

/-- In which parts two policies differ only depends on their canonical forms. -/
theorem differences_eq_of_equivalent : p.differences q = p'.differences q' := by
  unfold equivalent at hp hq
  rw [List.isEmpty_iff, differences_eq_nil_iff] at hp hq
  obtain ⟨hid, hinfo, hsubject, hactions, hobject, hcondition⟩ := hp
  obtain ⟨hid', hinfo', hsubject', hactions', hobject', hcondition'⟩ := hq
  unfold differences
  apply List.filter_congr
  intro field _
  cases field <;> simp only [differsIn, *]

end Congruence

end Policy

end AccessPolicy
