import LineMarkup.Text.Basic

/-!
Texts put in the place of characters. A cut, or a run of characters of one kind, is found at the
same place before and after such a substitution if the substitution leaves alone what is looked for.
-/

namespace LineMarkup.Text

set_option autoImplicit false

/-- A property of all characters of a text is decided on the text alone, not on all characters. -/
instance (priority := high) decidableForallMem {P : Char → Prop} [DecidablePred P] (t : Text) :
    Decidable (∀ c ∈ t, P c) := List.decidableBAll P t

variable {φ : Char → Text} {stop : Char}

theorem flatMap_eq_self {t : Text} (h : ∀ c ∈ t, φ c = [c]) : t.flatMap φ = t := by
  induction t with
  | nil => rfl
  | cons c r ih =>
    rw [List.flatMap_cons, h c List.mem_cons_self, ih fun d hd => h d (List.mem_cons_of_mem c hd)]
    rfl

/-- The first occurrence of a character cuts a text in one way. -/
theorem eq_of_append_cons_eq {x y x' y' : Text} (hx : stop ∉ x) (hx' : stop ∉ x')
    (h : x ++ stop :: y = x' ++ stop :: y') : x = x' ∧ y = y' := by
  have h₁ : cut stop (x ++ stop :: y) = some (x, y) := cut_eq_some_iff.mpr ⟨rfl, hx⟩
  have h₂ : cut stop (x ++ stop :: y) = some (x', y') := cut_eq_some_iff.mpr ⟨h, hx'⟩
  simpa using h₁.symm.trans h₂

/-- A character of two texts one after the other stands in the first or in the second. -/
theorem append_cons_cases {x y u v : Text} {c : Char} (h : x ++ y = u ++ c :: v) :
    (∃ w, x = u ++ c :: w ∧ v = w ++ y) ∨ ∃ w, u = x ++ w ∧ y = w ++ c :: v := by
  rcases List.append_eq_append_iff.mp h with ⟨w, hu, hy⟩ | ⟨w, hx, hv⟩
  · exact Or.inr ⟨w, hu, hy⟩
  · cases w with
    | nil => exact Or.inr ⟨[], by simpa using hx.symm, hv.symm⟩
    | cons d w =>
      obtain ⟨rfl, hrest⟩ := List.cons.inj hv
      exact Or.inl ⟨w, hx, hrest⟩

theorem append_cons_of_not_mem {x y u v : Text} {c : Char} (hc : c ∉ x) (h : x ++ y = u ++ c :: v) :
    ∃ w, u = x ++ w ∧ y = w ++ c :: v := by
  rcases append_cons_cases h with ⟨w, rfl, _⟩ | h
  · exact absurd (by simp) hc
  · exact h

/-- The substitution leaves `stop` as it is and writes it nowhere else. -/
structure Keeps (φ : Char → Text) (stop : Char) : Prop where
  same : φ stop = [stop]
  apart : ∀ c, c ≠ stop → stop ∉ φ c

theorem Keeps.mem_flatMap (h : Keeps φ stop) {t : Text} : stop ∈ t.flatMap φ ↔ stop ∈ t := by
  rw [List.mem_flatMap]
  constructor
  · rintro ⟨c, hc, hs⟩
    by_cases he : c = stop
    · exact he ▸ hc
    · exact absurd hs (h.apart c he)
  · exact fun hs => ⟨stop, hs, by rw [h.same]; exact List.mem_singleton.mpr rfl⟩

theorem Keeps.not_mem_flatMap (h : Keeps φ stop) {t : Text} (ht : stop ∉ t) :
    stop ∉ t.flatMap φ :=
  fun hm => ht (h.mem_flatMap.mp hm)

/-- Every occurrence of `stop` after the substitution was one before it. -/
theorem Keeps.split (h : Keeps φ stop) {t x y : Text} (ht : t.flatMap φ = x ++ stop :: y) :
    ∃ u v, t = u ++ stop :: v ∧ u.flatMap φ = x ∧ v.flatMap φ = y := by
  induction t generalizing x with
  | nil => simp at ht
  | cons c r ih =>
    rw [List.flatMap_cons] at ht
    by_cases hc : c = stop
    · subst hc
      rw [h.same] at ht
      cases x with
      | nil => exact ⟨[], r, rfl, rfl, by simpa using ht⟩
      | cons a x =>
        simp only [List.cons_append, List.nil_append, List.cons.injEq] at ht
        obtain ⟨u, v, rfl, hu, hv⟩ := ih ht.2
        refine ⟨c :: u, v, rfl, ?_, hv⟩
        rw [List.flatMap_cons, h.same, hu, ht.1]
        rfl
    · obtain ⟨w, hx, hr⟩ := append_cons_of_not_mem (h.apart c hc) ht
      obtain ⟨u, v, rfl, hu, hv⟩ := ih hr
      exact ⟨c :: u, v, rfl, by rw [List.flatMap_cons, hu, hx], hv⟩

theorem mem_takeWhile_append {x : Text} (hx : stop ∉ x) (y : Text) {c : Char} (hc : c ∈ x) :
    c ∈ (x ++ y).takeWhile (· ≠ stop) := by
  rw [List.takeWhile_append_of_pos]
  · exact List.mem_append_left _ hc
  · intro d hd
    exact decide_eq_true fun he => hx (he ▸ hd)

/-- The first `stop` is still the first one if nothing before it is replaced by a text that holds
another. -/
theorem cut_flatMap (hs : φ stop = [stop]) {t : Text}
    (h : ∀ c ∈ t.takeWhile (· ≠ stop), stop ∉ φ c) :
    cut stop (t.flatMap φ) = (cut stop t).map fun p => (p.1.flatMap φ, p.2.flatMap φ) := by
  have apart : ∀ x y, t = x ++ y → stop ∉ x → stop ∉ x.flatMap φ := by
    rintro x y rfl hx hm
    obtain ⟨c, hc, hm⟩ := List.mem_flatMap.mp hm
    exact h c (mem_takeWhile_append hx y hc) hm
  cases ht : cut stop t with
  | none =>
    rw [Option.map_none, cut_eq_none_iff]
    exact apart t [] (by simp) (cut_eq_none_iff.mp ht)
  | some p =>
    obtain ⟨before, after⟩ := p
    obtain ⟨he, hb⟩ := cut_eq_some_iff.mp ht
    rw [Option.map_some, cut_eq_some_iff]
    refine ⟨?_, apart before _ he hb⟩
    rw [he, List.flatMap_append, List.flatMap_cons, hs]
    rfl

section Runs
variable {p : Char → Bool} (hp : ∀ c, p c = true → φ c = [c])
  (hn : ∀ c, p c = false → ∃ d r, φ c = d :: r ∧ p d = false)
include hp hn

theorem dropWhile_flatMap (t : Text) :
    List.dropWhile p (t.flatMap φ) = (t.dropWhile p).flatMap φ := by
  induction t with
  | nil => rfl
  | cons c r ih =>
    cases hc : p c with
    | true => simpa [hp c hc, hc] using ih
    | false =>
      obtain ⟨d, s, hd, hpd⟩ := hn c hc
      simp [hc, hd, hpd]

theorem takeWhile_flatMap (t : Text) : List.takeWhile p (t.flatMap φ) = t.takeWhile p := by
  induction t with
  | nil => rfl
  | cons c r ih =>
    cases hc : p c with
    | true => simpa [hp c hc, hc] using ih
    | false =>
      obtain ⟨d, s, hd, hpd⟩ := hn c hc
      simp [hc, hd, hpd]

end Runs

end LineMarkup.Text
