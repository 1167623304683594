import LineMarkup.Proofs.Settings.Precedence

/-!
Overrides one after the other. A list of them works as far as the first that is no override: all before
it are applied, each of them to its own key alone, and nothing of it or after it is.
-/

namespace LineMarkup.Settings

set_option autoImplicit false

/-- What comes of settings when overrides are applied from the left. -/
inductive Applied : Settings → List Text → Settings → Prop where
  | nil (s : Settings) : Applied s [] s
  | cons {s next s' : Settings} {o : Text} {os : List Text} : IsOverride o →
      Obeys s (.override o) next → Applied next os s' → Applied s (o :: os) s'

variable {s s' next : Settings} {o : Text} {os : List Text} {e : OverrideError}

/-- Settings are their keys with the values that they have. -/
theorem eq_of_get (h : ∀ k, s.get k = s'.get k) : s = s' := by
  cases s
  cases s'
  rw [mk.injEq]
  exact ⟨h .outputDir, h .outputExtension, h .lineSeparator, h .jobs⟩

/-- A setter leaves no choice. -/
theorem Obeys.unique {x : Setter} (h : Obeys s x next) (h' : Obeys s x s') : next = s' := by
  apply eq_of_get
  intro k
  by_cases hx : ∃ v, x.Sets k v
  · obtain ⟨v, hv⟩ := hx
    rw [h.sets k v hv, h'.sets k v hv]
  · have hnone : ∀ v, ¬ x.Sets k v := fun v hv => hx ⟨v, hv⟩
    rw [h.keeps k hnone, h'.keeps k hnone]

theorem isOverride_iff : IsOverride o ↔ ∃ (name value : Text) (k : Key),
    o = name ++ '=' :: value ∧ '=' ∉ name ∧ name.trim = k.name ∧
      (k = .jobs → value.trim = [] ∨ ∃ n, Count.Writes value.trim n) := by
  constructor
  · rintro ⟨k, v, name, value, ho, hname, hk, hv⟩
    refine ⟨name, value, k, ho, hname, hk, ?_⟩
    rintro rfl
    generalize value.trim = t at hv
    cases hv with
    | noJobs => exact Or.inl rfl
    | jobs hn => exact Or.inr ⟨_, hn⟩
  · rintro ⟨name, value, k, ho, hname, hk, hjobs⟩
    suffices h : ∃ v, Reads k value.trim v by
      obtain ⟨v, hv⟩ := h
      exact ⟨k, v, name, value, ho, hname, hk, hv⟩
    cases k with
    | outputDir =>
      by_cases hv : value.trim = []
      · exact ⟨none, hv ▸ .noFolder⟩
      · exact ⟨_, .folder hv⟩
    | outputExtension => exact ⟨_, .extension _⟩
    | lineSeparator => exact ⟨_, .separator _⟩
    | jobs =>
      rcases hjobs rfl with hv | ⟨n, hn⟩
      · exact ⟨none, hv ▸ .noJobs⟩
      · exact ⟨_, .jobs hn⟩

theorem overrideText_eq_ok_iff_obeys :
    s.overrideText o = .ok next ↔ IsOverride o ∧ Obeys s (.override o) next := by
  constructor
  · intro h
    obtain ⟨k, v, hv, _⟩ := overrideText_eq_ok_iff.mp h
    exact ⟨⟨k, v, hv⟩, overrideText_obeys h⟩
  · rintro ⟨⟨k, v, hv⟩, h⟩
    have hok : s.overrideText o = .ok (s.set k v) := overrideText_eq_ok_iff.mpr ⟨k, v, hv, rfl⟩
    rw [hok, (overrideText_obeys hok).unique h]

theorem overrideAll_cons_of_ok (h : s.overrideText o = .ok next) :
    s.overrideAll (o :: os) = next.overrideAll os := by
  rw [overrideAll, h]

theorem overrideAll_cons_of_error (h : s.overrideText o = .error e) :
    s.overrideAll (o :: os) = (s, some e) := by
  rw [overrideAll, h]

theorem Applied.overrideAll_append (h : Applied s os s') (rest : List Text) :
    s.overrideAll (os ++ rest) = s'.overrideAll rest := by
  induction h with
  | nil s => rfl
  | cons ho hnext _ ih =>
    rw [List.cons_append, overrideAll_cons_of_ok (overrideText_eq_ok_iff_obeys.mpr ⟨ho, hnext⟩), ih]

theorem Applied.isOverride (h : Applied s os s') : ∀ o ∈ os, IsOverride o := by
  induction h with
  | nil s => exact fun o ho => absurd ho List.not_mem_nil
  | cons ho _ _ ih => exact List.forall_mem_cons.mpr ⟨ho, ih⟩

/-- All of the overrides are applied, or those before the first that is none. -/
theorem applied_or_refused (s : Settings) (os : List Text) :
    (∃ s', Applied s os s') ∨
    ∃ before o after s' e, os = before ++ o :: after ∧ Applied s before s' ∧ Refused o e := by
  induction os generalizing s with
  | nil => exact Or.inl ⟨s, .nil s⟩
  | cons o os ih =>
    cases ho : s.overrideText o with
    | error e =>
      exact Or.inr ⟨[], o, os, s, e, rfl, .nil s, overrideText_eq_error_iff.mp ho⟩
    | ok next =>
      obtain ⟨hover, hnext⟩ := overrideText_eq_ok_iff_obeys.mp ho
      rcases ih next with ⟨s', hs'⟩ | ⟨before, p, after, s', e, rfl, hs', hp⟩
      · exact Or.inl ⟨s', .cons hover hnext hs'⟩
      · exact Or.inr ⟨o :: before, p, after, s', e, rfl, .cons hover hnext hs', hp⟩

theorem overrideAll_of_applied (h : Applied s os s') : s.overrideAll os = (s', none) := by
  have hall := h.overrideAll_append []
  rwa [List.append_nil] at hall

theorem overrideAll_of_refused {before after : List Text} (h : Applied s before s')
    (ho : Refused o e) : s.overrideAll (before ++ o :: after) = (s', some e) := by
  rw [h.overrideAll_append, overrideAll_cons_of_error (overrideText_eq_error_iff.mpr ho)]

/-- Overrides are applied if they all are overrides. If not, those before the first that is none are, and
the error says what is wrong with that one. -/
theorem overrideAll_outcome (s : Settings) (os : List Text) :
    ((s.overrideAll os).2 = none ↔ ∀ o ∈ os, ∃ (name value : Text) (k : Key),
      o = name ++ '=' :: value ∧ '=' ∉ name ∧ name.trim = k.name ∧
        (k = .jobs → value.trim = [] ∨ ∃ n, Count.Writes value.trim n)) ∧
    (∀ s', s.overrideAll os = (s', none) ↔ Applied s os s') ∧
    ∀ s' e, s.overrideAll os = (s', some e) ↔
      ∃ before o after, os = before ++ o :: after ∧ Applied s before s' ∧ Refused o e := by
  simp only [← isOverride_iff]
  rcases applied_or_refused s os with ⟨r, hr⟩ | ⟨before, o, after, r, e, rfl, hr, ho⟩
  · have hrun := overrideAll_of_applied hr
    refine ⟨⟨fun _ => hr.isOverride, fun _ => congrArg Prod.snd hrun⟩, fun s' => ⟨?_, ?_⟩,
      fun s' e => ⟨?_, ?_⟩⟩
    · intro h
      cases hrun.symm.trans h
      exact hr
    · exact overrideAll_of_applied
    · intro h
      cases hrun.symm.trans h
    · rintro ⟨before, o, after, rfl, _, ho⟩
      exact absurd (hr.isOverride o (by simp)) ho.not_isOverride
  · have hrun : s.overrideAll (before ++ o :: after) = (r, some e) := overrideAll_of_refused hr ho
    refine ⟨⟨?_, fun h => absurd (h o (by simp)) ho.not_isOverride⟩, fun s' => ⟨?_, ?_⟩,
      fun s' e' => ⟨?_, ?_⟩⟩
    · intro h
      cases (congrArg Prod.snd hrun).symm.trans h
    · intro h
      cases hrun.symm.trans h
    · intro h
      exact absurd (h.isOverride o (by simp)) ho.not_isOverride
    · intro h
      cases hrun.symm.trans h
      exact ⟨before, o, after, rfl, hr, ho⟩
    · rintro ⟨before', o', after', he, hr', ho'⟩
      rw [he]
      exact overrideAll_of_refused hr' ho'

/-- The second one stops the list, with the first one applied. -/
example : default.overrideAll ["jobs = +3".toList, "jobs=many".toList, "output_dir=x".toList] =
    (⟨none, "html".toList, ['\n'], some 3⟩, some (.badJobs "many".toList .notDigit)) := by
  decide

end LineMarkup.Settings
