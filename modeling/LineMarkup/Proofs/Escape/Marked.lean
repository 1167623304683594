import LineMarkup.Proofs.Escape.Runs

/-!
Marked texts: a literal mark always stands before a reserved character, which it keeps as it is.
Shielding makes such texts, they can be cut at every character that is not reserved, and unshielding
one part of a marked text does not depend on the others.
-/

namespace LineMarkup.Escape

set_option autoImplicit false

inductive Marked : Text → Prop where
  | nil : Marked []
  | plain {c : Char} {t : Text} : c ≠ literalMark → Marked t → Marked (c :: t)
  | literal {c : Char} {t : Text} : isReserved c = true → Marked t → Marked (literalMark :: c :: t)

theorem Marked.append {x y : Text} (hx : Marked x) (hy : Marked y) : Marked (x ++ y) := by
  induction hx with
  | nil => exact hy
  | plain hc _ ih => exact .plain hc ih
  | literal hc _ ih => exact .literal hc ih

theorem Marked.of_not_mem {t : Text} (h : literalMark ∉ t) : Marked t := by
  induction t with
  | nil => exact .nil
  | cons c r ih =>
    rw [List.mem_cons, not_or] at h
    exact .plain (Ne.symm h.1) (ih h.2)

theorem isReserved_literalMark : isReserved literalMark = true := by decide

theorem ne_literalMark {c : Char} (h : isReserved c = false) : c ≠ literalMark := by
  rintro rfl
  exact absurd isReserved_literalMark (by rw [h]; decide)

/-- A cut parts a marked text into two of them, or a mark from its character. -/
theorem Marked.append_cases {x y : Text} (h : Marked (x ++ y)) : (Marked x ∧ Marked y) ∨
    ∃ x' c y', x = x' ++ [literalMark] ∧ y = c :: y' ∧ Marked x' ∧ isReserved c = true := by
  generalize ht : x ++ y = t at h
  induction h generalizing x with
  | nil =>
    obtain ⟨rfl, rfl⟩ := List.append_eq_nil_iff.mp ht
    exact Or.inl ⟨.nil, .nil⟩
  | @plain c t hc h ih =>
    cases x with
    | nil =>
      obtain rfl : y = c :: t := ht
      exact Or.inl ⟨.nil, .plain hc h⟩
    | cons a x =>
      obtain ⟨rfl, hr⟩ := List.cons.inj ht
      rcases ih hr with ⟨hx, hy⟩ | ⟨x', d, y', rfl, hy, hx, hd⟩
      · exact Or.inl ⟨.plain hc hx, hy⟩
      · exact Or.inr ⟨a :: x', d, y', rfl, hy, .plain hc hx, hd⟩
  | @literal c t hc h ih =>
    cases x with
    | nil =>
      obtain rfl : y = literalMark :: c :: t := ht
      exact Or.inl ⟨.nil, .literal hc h⟩
    | cons a x =>
      obtain ⟨rfl, hr⟩ := List.cons.inj ht
      cases x with
      | nil => exact Or.inr ⟨[], c, t, rfl, hr, .nil, hc⟩
      | cons b x =>
        obtain ⟨rfl, hrest⟩ := List.cons.inj hr
        rcases ih hrest with ⟨hx, hy⟩ | ⟨x', d, y', rfl, hy, hx, hd⟩
        · exact Or.inl ⟨.literal hc hx, hy⟩
        · exact Or.inr ⟨literalMark :: b :: x', d, y', rfl, hy, .literal hc hx, hd⟩

/-- A marked text falls into two of them at a character that is not reserved. -/
theorem Marked.split {x y : Text} {c : Char} (hc : isReserved c = false)
    (h : Marked (x ++ c :: y)) : Marked x ∧ Marked y := by
  rcases h.append_cases with ⟨hx, hy⟩ | ⟨_, d, _, _, hd, _, hr⟩
  · cases hy with
    | plain _ hy => exact ⟨hx, hy⟩
    | literal _ _ => exact absurd rfl (ne_literalMark hc)
  · obtain ⟨rfl, _⟩ := List.cons.inj hd
    rw [hc] at hr
    cases hr

theorem Marked.of_append {x y : Text} (hx : ∀ c ∈ x, isReserved c = false)
    (h : Marked (x ++ y)) : Marked y := by
  induction x with
  | nil => exact h
  | cons c x ih =>
    have hc := hx c List.mem_cons_self
    exact ih (fun d hd => hx d (List.mem_cons_of_mem c hd)) (Marked.split (x := []) hc h).2

theorem unshield_append {x : Text} (hx : Marked x) (y : Text) :
    unshield (x ++ y) = unshield x ++ unshield y := by
  induction hx with
  | nil => rfl
  | plain hc _ ih => rw [List.cons_append, unshield_cons hc, unshield_cons hc, ih, List.cons_append]
  | literal _ _ ih =>
    rw [List.cons_append, List.cons_append, unshield_literal, unshield_literal, ih, List.cons_append]

theorem shield_eq_self_or (c : Char) : shield c = c ∨ (c, shield c) ∈ shields := by
  rw [shield]
  cases h : shields.find? fun p => p.1 = c with
  | none => exact .inl rfl
  | some p =>
    obtain rfl : p.1 = c := by simpa using List.find?_some h
    exact .inr (List.mem_of_find?_eq_some h)

theorem unshieldChar_eq_self_or (c : Char) : unshieldChar c = c ∨ (unshieldChar c, c) ∈ shields := by
  rw [unshieldChar]
  cases h : shields.find? fun p => p.2 = c with
  | none => exact .inl rfl
  | some p =>
    obtain rfl : p.2 = c := by simpa using List.find?_some h
    exact .inr (List.mem_of_find?_eq_some h)

theorem toNat_of_mem_shields : ∀ p ∈ shields, p.1.toNat < 0x80 := by decide

theorem isReserved_of_mem_shields :
    ∀ p ∈ shields, isReserved p.1 = false ∧ isReserved p.2 = true ∧ p.2 ≠ literalMark := by decide

theorem unshieldChar_of_mem_shields : ∀ p ∈ shields, unshieldChar p.2 = p.1 := by decide

theorem mem_shields_of_mem_tokens : ∀ c ∈ tokens, (c, shield c) ∈ shields := by decide

theorem shield_of_isReserved {c : Char} (h : isReserved c = true) : shield c = c := by
  rcases shield_eq_self_or c with hs | hs
  · exact hs
  · have hf := (isReserved_of_mem_shields _ hs).1
    rw [h] at hf
    exact absurd hf (by decide)

theorem shield_ne_literalMark {c : Char} (h : c ≠ literalMark) : shield c ≠ literalMark := by
  rcases shield_eq_self_or c with hs | hs
  · rw [hs]
    exact h
  · exact (isReserved_of_mem_shields _ hs).2.2

theorem unshieldChar_eq_self {c : Char} (h : isReserved c = false) : unshieldChar c = c := by
  rcases unshieldChar_eq_self_or c with hs | hs
  · exact hs
  · have ht := (isReserved_of_mem_shields _ hs).2.1
    rw [h] at ht
    exact absurd ht (by decide)

/-- A placeholder that shielding itself writes becomes its token again; a placeholder that was there
already becomes a token as well. -/
theorem unshieldChar_shield (c : Char) : unshieldChar (shield c) = unshieldChar c := by
  rcases shield_eq_self_or c with hs | hs
  · rw [hs]
  · rw [unshieldChar_of_mem_shields _ hs, unshieldChar_eq_self (isReserved_of_mem_shields _ hs).1]

theorem Marked.shieldText {t : Text} (h : Marked t) : Marked (shieldText t) := by
  induction h with
  | nil => exact .nil
  | plain hc _ ih => exact .plain (shield_ne_literalMark hc) ih
  | @literal c t hc _ ih =>
    rw [Escape.shieldText, List.map_cons, List.map_cons, shield_of_isReserved hc,
      shield_of_isReserved isReserved_literalMark]
    exact .literal hc ih

theorem unshield_shieldText {t : Text} (h : Marked t) : unshield (shieldText t) = unshield t := by
  induction h with
  | nil => rfl
  | @plain c t hc _ ih =>
    have hs : shieldText (c :: t) = shield c :: shieldText t := rfl
    rw [hs, unshield_cons (shield_ne_literalMark hc), unshield_cons hc, unshieldChar_shield, ih]
  | @literal c t hc _ ih =>
    have hs : shieldText (literalMark :: c :: t) = literalMark :: c :: shieldText t := by
      rw [shieldText, List.map_cons, List.map_cons, shield_of_isReserved hc,
        shield_of_isReserved isReserved_literalMark]
      rfl
    rw [hs, unshield_literal, unshield_literal, ih]

theorem marked_backslashes (k : Nat) : Marked (backslashes k) :=
  .of_not_mem fun hm => absurd (mem_backslashes.mp hm).2 (by decide)

theorem unshield_backslashes (k : Nat) : unshield (backslashes k) = backslashes k := by
  induction k with
  | zero => rfl
  | succ k ih =>
    have hk : backslashes (k + 1) = '\\' :: backslashes k := rfl
    rw [hk, unshield_cons (by decide), ih]
    rfl

theorem marked_shieldRun (k : Nat) {c : Char} : Marked (shieldRun k c) := by
  rcases shieldRun_cases k c with ⟨hr, _, h⟩ | ⟨ht, h⟩ | ⟨hr, _, h⟩
  · rw [h]
    exact (marked_backslashes k).append (.literal hr .nil)
  · have hc := ne_literalMark (isReserved_of_mem_tokens c ht)
    rw [h]
    refine (marked_backslashes _).append (.plain ?_ .nil)
    split
    · exact hc
    · exact shield_ne_literalMark hc
  · rw [h]
    exact (marked_backslashes k).append (.plain (ne_literalMark hr) .nil)

theorem marked_shieldEscapes (t : Text) : Marked (shieldEscapes t) := by
  rw [shieldEscapes_eq_rewriteRuns]
  induction t using run_induction with
  | last k =>
    rw [rewriteRuns_backslashes]
    exact marked_backslashes k
  | run k c t hc ih =>
    rw [rewriteRuns_run _ k hc]
    exact (marked_shieldRun k).append ih

theorem mem_shieldRun {k : Nat} {c d : Char} (h : d ∈ shieldRun k c) :
    d = c ∨ d = '\\' ∨ isReserved d = true := by
  rcases shieldRun_cases k c with ⟨_, _, hs⟩ | ⟨ht, hs⟩ | ⟨_, _, hs⟩
  · rw [hs, List.mem_append, mem_backslashes, List.mem_cons, List.mem_singleton] at h
    rcases h with ⟨_, rfl⟩ | rfl | rfl
    · exact Or.inr (Or.inl rfl)
    · exact Or.inr (Or.inr isReserved_literalMark)
    · exact Or.inl rfl
  · rw [hs, List.mem_append, mem_backslashes, List.mem_singleton] at h
    rcases h with ⟨_, rfl⟩ | rfl
    · exact Or.inr (Or.inl rfl)
    · split
      · exact Or.inl rfl
      · have hp := mem_shields_of_mem_tokens c ht
        exact Or.inr (Or.inr (isReserved_of_mem_shields _ hp).2.1)
  · rw [hs, List.mem_append, mem_backslashes, List.mem_singleton] at h
    rcases h with ⟨_, rfl⟩ | rfl
    · exact Or.inr (Or.inl rfl)
    · exact Or.inl rfl

/-- Shielding brings in nothing but backslashes and reserved characters. -/
theorem mem_shieldEscapes {t : Text} {d : Char} (h : d ∈ shieldEscapes t) :
    d ∈ t ∨ d = '\\' ∨ isReserved d = true := by
  rw [shieldEscapes_eq_rewriteRuns] at h
  induction t using run_induction with
  | last k =>
    rw [rewriteRuns_backslashes] at h
    exact Or.inl h
  | run k c t hc ih =>
    rw [rewriteRuns_run _ k hc] at h
    rcases List.mem_append.mp h with h | h
    · rcases mem_shieldRun h with rfl | h
      · exact Or.inl (by simp)
      · exact Or.inr h
    · rcases ih h with h | h
      · exact Or.inl (by simp [h])
      · exact Or.inr h

theorem newline_not_mem_shieldEscapes {t : Text} (h : '\n' ∉ t) : '\n' ∉ shieldEscapes t := by
  intro hm
  rcases mem_shieldEscapes hm with hm | hm | hm
  · exact h hm
  · exact absurd hm (by decide)
  · exact absurd hm (by decide)

theorem Marked.flatMap {φ : Char → Text} {t : Text} (ht : Marked t)
    (reserved : ∀ c, isReserved c = true → φ c = [c])
    (plain : ∀ c, c ≠ literalMark → Marked (φ c)) : Marked (t.flatMap φ) := by
  induction ht with
  | nil => exact .nil
  | @plain c t hc _ ih =>
    rw [List.flatMap_cons]
    exact (plain c hc).append ih
  | @literal c t hc _ ih =>
    rw [List.flatMap_cons, List.flatMap_cons, reserved _ isReserved_literalMark, reserved c hc]
    exact .literal hc ih

/-- Unshielding after a substitution is a substitution after unshielding. -/
theorem unshield_flatMap {φ ψ : Char → Text} {t : Text} (ht : Marked t)
    (reserved : ∀ c, isReserved c = true → φ c = [c] ∧ ψ c = [c])
    (plain : ∀ c, c ≠ literalMark → c ∈ t → Marked (φ c) ∧ unshield (φ c) = ψ (unshieldChar c)) :
    unshield (t.flatMap φ) = (unshield t).flatMap ψ := by
  induction ht with
  | nil => rfl
  | @plain c t hc _ ih =>
    obtain ⟨hm, hu⟩ := plain c hc List.mem_cons_self
    rw [List.flatMap_cons, unshield_append hm, hu, unshield_cons hc, List.flatMap_cons]
    rw [ih fun d hd hdt => plain d hd (List.mem_cons_of_mem c hdt)]
  | @literal c t hc _ ih =>
    rw [List.flatMap_cons, List.flatMap_cons, (reserved _ isReserved_literalMark).1,
      (reserved c hc).1, List.singleton_append, List.singleton_append, unshield_literal,
      unshield_literal, List.flatMap_cons, (reserved c hc).2, List.singleton_append]
    rw [ih fun d hd hdt => plain d hd (List.mem_cons_of_mem _ (List.mem_cons_of_mem c hdt))]

end LineMarkup.Escape
