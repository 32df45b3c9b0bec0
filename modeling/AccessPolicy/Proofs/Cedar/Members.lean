import AccessPolicy.Proofs.Cedar.Scopes

/-!
# Members and scopes of principals

A member and the scope that it stands for determine each other. Every scope that is made from a
member reads back as this member. The other way round an identifier may be in the way: members are
one line with an identifier that is not empty, while entities may have any text.

* `IsMemberId`: the identifiers that can stand in a member.
* `Config.IsPrincipal`: the scopes that members stand for.
* `Config.exists_scopeMember_iff`: exactly these have a member.
* `Config.memberScope_eq_ok_iff_scopeMember`: when a scope is made from a member.
* `Config.memberScope_of_not_isMemberId`: how making a scope fails otherwise.
* `Config.member_correspondence`: all of this together.
-/

namespace AccessPolicy.Cedar

/-- An identifier can stand in a member: it is not empty and on one line. -/
def IsMemberId (id : String) : Prop := id ≠ "" ∧ '\n' ∉ id.toList

instance (id : String) : Decidable (IsMemberId id) :=
  inferInstanceAs (Decidable (id ≠ "" ∧ '\n' ∉ id.toList))

namespace Scope

/-- The entities that a scope mentions, under any operator. -/
def mentioned : Scope → List EntityUid
  | .all => []
  | .eq e => [e]
  | .within e => [e]
  | .withinAny es => es
  | .is _ => []
  | .isWithin _ e => [e]

/-- The types that a scope mentions, its own and those of its entities. -/
def types : Scope → List String
  | .is type => [type]
  | .isWithin type e => [type, e.type]
  | s => s.mentioned.map EntityUid.type

end Scope

namespace EntityKind

@[simp]
theorem mentioned_memberScope (k : EntityKind) (e : EntityUid) :
    (k.memberScope e).mentioned = [e] := by
  unfold memberScope
  split_ifs <;> rfl

@[simp]
theorem types_memberScope (k : EntityKind) (e : EntityUid) :
    (k.memberScope e).types = [e.type] := by
  unfold memberScope
  split_ifs <;> rfl

theorem exists_memberWord?_of_isContainer {k : EntityKind} (h : k.isContainer = true) :
    k.memberWord? ≠ none := by
  cases k <;> simp_all [isContainer, memberWord?]

end EntityKind

namespace Config

variable {c : Config} {s : Scope} {m : String}

/-! ## Scopes that have a member -/

/-- The scopes of principals that members stand for: no limit, every user, a container with what is
    in it, and any other principal alone. All types are in the namespace. -/
inductive IsPrincipal (c : Config) : Scope → Prop where
  | all : IsPrincipal c .all
  | users : IsPrincipal c (.is (c.qualify EntityKind.user.name))
  | container {k : EntityKind} {e : EntityUid} :
    k.isContainer = true → e.type = c.qualify k.name → IsPrincipal c (.within e)
  | single {k : EntityKind} {e : EntityUid} :
    k.isContainer = false → k.memberWord? ≠ none → e.type = c.qualify k.name → IsPrincipal c (.eq e)

theorem isPrincipal_memberScope {k : EntityKind} (h : k.memberWord? ≠ none) (id : String) :
    c.IsPrincipal (k.memberScope ⟨c.qualify k.name, id⟩) := by
  unfold EntityKind.memberScope
  split_ifs with hcontainer
  · exact .container hcontainer rfl
  · exact .single (by simpa using hcontainer) h rfl

/-- The entity of a scope has a member whatever its identifier is, also where the member is no text
    that a scope is made from. -/
theorem exists_scopeMember_memberScope {k : EntityKind} {e : EntityUid} (h : k.memberWord? ≠ none)
    (htype : e.type = c.qualify k.name) : ∃ m, c.scopeMember (k.memberScope e) = .ok m := by
  obtain ⟨word, hword⟩ := Option.ne_none_iff_exists'.mp h
  have hentity : k.memberScope e = k.memberScope ⟨c.qualify k.name, e.id⟩ := by rw [← htype]
  exact ⟨_, scopeMember_eq_ok_iff.mpr (Or.inr (Or.inr ⟨k, word, e.id, hword, rfl, hentity⟩))⟩

theorem exists_scopeMember_iff : (∃ m, c.scopeMember s = .ok m) ↔ c.IsPrincipal s := by
  constructor
  · rintro ⟨m, h⟩
    obtain ⟨rfl, -⟩ | ⟨rfl, -⟩ | ⟨k, word, id, hword, -, rfl⟩ := scopeMember_eq_ok_iff.mp h
    · exact .all
    · exact .users
    · exact isPrincipal_memberScope (by simp [hword]) id
  · rintro (_ | _ | @⟨k, e, hcontainer, htype⟩ | @⟨k, e, hsingle, hsome, htype⟩)
    · exact ⟨_, scopeMember_eq_ok_iff.mpr (Or.inl ⟨rfl, rfl⟩)⟩
    · exact ⟨_, scopeMember_eq_ok_iff.mpr (Or.inr (Or.inl ⟨rfl, rfl⟩))⟩
    · have hscope : k.memberScope e = .within e := if_pos hcontainer
      rw [← hscope]
      exact exists_scopeMember_memberScope (EntityKind.exists_memberWord?_of_isContainer hcontainer)
        htype
    · have hscope : k.memberScope e = .eq e := if_neg (by simp [hsingle])
      rw [← hscope]
      exact exists_scopeMember_memberScope hsome htype

/-- In a namespace, all types that are mentioned are in it. -/
theorem types_of_scopeMember (h : c.scopeMember s = .ok m) {ns : String} (hns : c.ns = some ns)
    (hne : ns ≠ "") : ∀ type ∈ s.types, ∃ name, type = ns ++ "::" ++ name := by
  have hqualify : ∀ name, c.qualify name = ns ++ "::" ++ name := by
    intro name
    unfold qualify Cedar.qualify
    rw [hns]
    exact if_neg hne
  obtain ⟨rfl, -⟩ | ⟨rfl, -⟩ | ⟨k, word, id, -, -, rfl⟩ := scopeMember_eq_ok_iff.mp h
  · simp [Scope.types, Scope.mentioned]
  · simp [Scope.types, hqualify]
  · simp [hqualify]

/-! ## There and back -/

/-- A scope is made from a member exactly if it reads back as this member and its entity has an
    identifier that can stand in a member. -/
theorem memberScope_eq_ok_iff_scopeMember :
    c.memberScope m = .ok s ↔ c.scopeMember s = .ok m ∧ ∀ e ∈ s.mentioned, IsMemberId e.id := by
  rw [memberScope_eq_ok_iff, scopeMember_eq_ok_iff]
  constructor
  · rintro (⟨rfl, rfl⟩ | ⟨rfl, rfl⟩ | ⟨k, word, id, hword, hm, hid, hline, rfl⟩)
    · exact ⟨Or.inl ⟨rfl, rfl⟩, by simp [Scope.mentioned]⟩
    · exact ⟨Or.inr (Or.inl ⟨rfl, rfl⟩), by simp [Scope.mentioned]⟩
    · exact ⟨Or.inr (Or.inr ⟨k, word, id, hword, hm, rfl⟩), by simp [IsMemberId, hid, hline]⟩
  · rintro ⟨⟨rfl, rfl⟩ | ⟨rfl, rfl⟩ | ⟨k, word, id, hword, hm, rfl⟩, hids⟩
    · exact Or.inl ⟨rfl, rfl⟩
    · exact Or.inr (Or.inl ⟨rfl, rfl⟩)
    · obtain ⟨hid, hline⟩ : IsMemberId id := by simpa using hids
      exact Or.inr (Or.inr ⟨k, word, id, hword, hm, hid, hline, rfl⟩)

/-- What is said of a text that is no word and identifier. -/
theorem memberScope_of_splitMember?_eq_none (hany : m ≠ anyMember) (huser : m ≠ anyUserMember)
    (h : splitMember? m = none) :
    c.memberScope m = .error (.format ("member '" ++ m ++ "' has no type prefix")) := by
  unfold memberScope
  rw [if_neg hany, if_neg huser, h]

theorem memberScope_of_not_isMemberId (h : c.scopeMember s = .ok m)
    (hid : ∃ e ∈ s.mentioned, ¬ IsMemberId e.id) :
    c.memberScope m = .error (.format ("member '" ++ m ++ "' has no type prefix")) := by
  obtain ⟨rfl, rfl⟩ | ⟨rfl, rfl⟩ | ⟨k, word, id, hword, rfl, rfl⟩ := scopeMember_eq_ok_iff.mp h
  · simp [Scope.mentioned] at hid
  · simp [Scope.mentioned] at hid
  · have hnot : ¬ IsMemberId id := by simpa using hid
    obtain ⟨hany, huser⟩ := word_colon_ne word id
    refine memberScope_of_splitMember?_eq_none hany huser ?_
    rw [Option.eq_none_iff_forall_ne_some]
    rintro ⟨word', id'⟩ hsplit
    obtain ⟨hm, -, hletters, hne, hline⟩ := splitMember?_eq_some_iff.mp hsplit
    obtain ⟨rfl, rfl⟩ := word_colon_inj (EntityKind.isAlpha_of_memberWord? hword).2 hletters hm
    exact hnot ⟨hne, hline⟩

/-- **Members.** A scope is made from a member exactly if it reads back as this member and its
    entity, if any, has an identifier on one line that is not empty. From the member of any other
    scope no scope is made. So neither two members nor two scopes are taken for the same. The scopes
    that have a member are the one without a limit, that of all users, those of a container with
    what is in it, and those of one other principal, all of types in the namespace. -/
theorem member_correspondence (c : Config) :
    (∀ m s, c.memberScope m = .ok s ↔
      c.scopeMember s = .ok m ∧ ∀ e ∈ s.mentioned, IsMemberId e.id) ∧
    (∀ s m, c.scopeMember s = .ok m → (∃ e ∈ s.mentioned, ¬ IsMemberId e.id) →
      c.memberScope m = .error (.format ("member '" ++ m ++ "' has no type prefix"))) ∧
    (∀ m m' s, c.memberScope m = .ok s → c.memberScope m' = .ok s → m = m') ∧
    (∀ s s' m, c.scopeMember s = .ok m → c.scopeMember s' = .ok m → s = s') ∧
    (∀ s, (∃ m, c.scopeMember s = .ok m) ↔ c.IsPrincipal s) ∧
    ∀ ns, c.ns = some ns → ns ≠ "" → ∀ s m, c.scopeMember s = .ok m →
      ∀ type ∈ s.types, ∃ name, type = ns ++ "::" ++ name := by
  refine ⟨fun m s => memberScope_eq_ok_iff_scopeMember, fun s m => memberScope_of_not_isMemberId,
    fun m m' s h h' => ?_, fun s s' m h h' => scopeMember_inj h' h,
    fun s => exists_scopeMember_iff, fun ns hns hne s m h => types_of_scopeMember h hns hne⟩
  have hm := scopeMember_of_memberScope h
  rw [scopeMember_of_memberScope h'] at hm
  exact (Except.ok.inj hm).symm

/-- A group with a colon in its identifier, and a user whose identifier has two lines. -/
theorem member_correspondence_app :
    let c : Config := { ns := some "App" }
    c.memberScope "group:a:b" = .ok (.within ⟨"App::Group", "a:b"⟩) ∧
      c.scopeMember (.eq ⟨"App::User", "a\nb"⟩) = .ok "user:a\nb" ∧
      c.memberScope "user:a\nb" =
        .error (.format ("member '" ++ "user:a\nb" ++ "' has no type prefix")) ∧
      ∀ type ∈ (Scope.eq ⟨"App::User", "a\nb"⟩).types, ∃ name, type = "App" ++ "::" ++ name := by
  intro c
  obtain ⟨hmade, hfails, -, -, -, hnamespace⟩ := member_correspondence c
  have hgroup : c.scopeMember (.within ⟨"App::Group", "a:b"⟩) = .ok "group:a:b" := by decide
  have huser : c.scopeMember (.eq ⟨"App::User", "a\nb"⟩) = .ok "user:a\nb" := by decide
  exact ⟨(hmade _ _).mpr ⟨hgroup, by decide⟩, huser, hfails _ _ huser (by decide),
    hnamespace "App" rfl (by decide) _ _ huser⟩

end Config

end AccessPolicy.Cedar
