import LineMarkup.Escape
import LineMarkup.Proofs.Text.Substitution

/-!
Escaping as a rewriting of runs. A maximal run of backslashes is taken together with the character
right after it, so a text is a sequence of such runs and perhaps some backslashes at its end.
-/

namespace LineMarkup.Escape

set_option autoImplicit false

def rewriteFrom (f : Nat → Char → Text) : Nat → Text → Text
  | k, [] => backslashes k
  | k, c :: r => if c = '\\' then rewriteFrom f (k + 1) r else f k c ++ rewriteFrom f 0 r

/-- Writes `f k c` for every character `c`, no backslash itself, and the maximal run of `k`
backslashes right before it. Backslashes at the end are kept. -/
def rewriteRuns (f : Nat → Char → Text) (t : Text) : Text := rewriteFrom f 0 t

/-- Changes the length of every run of backslashes and the character after it. -/
def changeRuns (g : Nat → Char → Nat × Char) : Text → Text :=
  rewriteRuns fun k c => backslashes (g k c).1 ++ [(g k c).2]

theorem backslashes_succ (k : Nat) : backslashes (k + 1) = backslashes k ++ ['\\'] :=
  List.replicate_succ'

@[simp] theorem mem_backslashes {c : Char} {k : Nat} : c ∈ backslashes k ↔ k ≠ 0 ∧ c = '\\' := by
  simp [backslashes]

theorem rewriteFrom_backslashes (f : Nat → Char → Text) (k n : Nat) (t : Text) :
    rewriteFrom f k (backslashes n ++ t) = rewriteFrom f (k + n) t := by
  induction n generalizing k with
  | zero => rfl
  | succ n ih =>
    have hs : rewriteFrom f k (backslashes (n + 1) ++ t) =
        rewriteFrom f (k + 1) (backslashes n ++ t) := by
      simp [backslashes, List.replicate_succ, rewriteFrom]
    rw [hs, ih, Nat.add_right_comm, Nat.add_assoc]

theorem rewriteRuns_backslashes (f : Nat → Char → Text) (k : Nat) :
    rewriteRuns f (backslashes k) = backslashes k := by
  have h := rewriteFrom_backslashes f 0 k []
  rw [List.append_nil, Nat.zero_add] at h
  exact h

theorem rewriteRuns_run (f : Nat → Char → Text) (k : Nat) {c : Char} (hc : c ≠ '\\') (t : Text) :
    rewriteRuns f (backslashes k ++ c :: t) = f k c ++ rewriteRuns f t := by
  rw [rewriteRuns, rewriteFrom_backslashes, Nat.zero_add, rewriteFrom, if_neg hc, rewriteRuns]

/-- Induction from run to run. -/
theorem run_induction {motive : Text → Prop} (last : ∀ k, motive (backslashes k))
    (run : ∀ k c t, c ≠ '\\' → motive t → motive (backslashes k ++ c :: t)) (t : Text) :
    motive t := by
  have go : ∀ r k, motive (backslashes k ++ r) := by
    intro r
    induction r with
    | nil =>
      intro k
      rw [List.append_nil]
      exact last k
    | cons c r ih =>
      intro k
      by_cases hc : c = '\\'
      · have h := ih (k + 1)
        rw [backslashes_succ, List.append_assoc] at h
        rw [hc]
        exact h
      · exact run k c r hc (ih 0)
  exact go t 0

/-- A text that ends in no backslash is rewritten by itself, whatever follows it. -/
theorem rewriteRuns_append (f : Nat → Char → Text) {x : Text} (hx : x.getLast? ≠ some '\\')
    (t : Text) : rewriteRuns f (x ++ t) = rewriteRuns f x ++ rewriteRuns f t := by
  induction x using run_induction with
  | last k =>
    cases k with
    | zero => rfl
    | succ k =>
      rw [backslashes_succ, List.getLast?_concat] at hx
      exact absurd rfl hx
  | run k c r hc ih =>
    have hr : r.getLast? ≠ some '\\' := by
      intro hr
      apply hx
      rw [List.getLast?_append, List.getLast?_cons, hr]
      rfl
    rw [List.append_assoc, List.cons_append, rewriteRuns_run f k hc, rewriteRuns_run f k hc, ih hr,
      List.append_assoc]

theorem rewriteRuns_congr {f g : Nat → Char → Text} {t : Text}
    (h : ∀ k c, c ∈ t → c ≠ '\\' → f k c = g k c) : rewriteRuns f t = rewriteRuns g t := by
  induction t using run_induction with
  | last k => rw [rewriteRuns_backslashes, rewriteRuns_backslashes]
  | run k c t hc ih =>
    rw [rewriteRuns_run f k hc, rewriteRuns_run g k hc, h k c (by simp) hc]
    rw [ih fun n d hd => h n d (by simp [hd])]

theorem rewriteRuns_eq_self (t : Text) : rewriteRuns (fun k c => backslashes k ++ [c]) t = t := by
  induction t using run_induction with
  | last k => rw [rewriteRuns_backslashes]
  | run k c t hc ih => rw [rewriteRuns_run _ k hc, ih, List.append_assoc, List.singleton_append]

theorem flatMap_backslashes {φ : Char → Text} (hφ : φ '\\' = ['\\']) (k : Nat) :
    (backslashes k).flatMap φ = backslashes k := by
  induction k with
  | zero => rfl
  | succ k ih => rw [backslashes_succ, List.flatMap_append, ih, List.flatMap_singleton, hφ]

theorem rewriteRuns_flatMap {f : Nat → Char → Text} {φ : Char → Text} (hφ : φ '\\' = ['\\'])
    (t : Text) : (rewriteRuns f t).flatMap φ = rewriteRuns (fun k c => (f k c).flatMap φ) t := by
  induction t using run_induction with
  | last k => rw [rewriteRuns_backslashes, rewriteRuns_backslashes, flatMap_backslashes hφ]
  | run k c t hc ih => rw [rewriteRuns_run f k hc, rewriteRuns_run _ k hc, List.flatMap_append, ih]

theorem rewriteRuns_changeRuns {f : Nat → Char → Text} {g : Nat → Char → Nat × Char}
    (hg : ∀ k c, c ≠ '\\' → (g k c).2 ≠ '\\') (t : Text) :
    rewriteRuns f (changeRuns g t) = rewriteRuns (fun k c => f (g k c).1 (g k c).2) t := by
  induction t using run_induction with
  | last k => rw [changeRuns, rewriteRuns_backslashes, rewriteRuns_backslashes, rewriteRuns_backslashes]
  | run k c t hc ih =>
    rw [changeRuns] at ih ⊢
    rw [rewriteRuns_run _ k hc, rewriteRuns_run _ k hc, List.append_assoc, List.singleton_append]
    rw [rewriteRuns_run f _ (hg k c hc), ih]

/-- What shielding writes for a character and the run of backslashes before it. -/
def shieldRun (k : Nat) (c : Char) : Text :=
  if isReserved c then backslashes k ++ [literalMark, c]
  else if tokens.contains c then backslashes (k / 2) ++ [if k % 2 = 0 then c else shield c]
  else backslashes k ++ [c]

theorem isReserved_of_mem_tokens : ∀ c ∈ tokens, isReserved c = false := by decide

theorem ne_backslash_of_mem_tokens : ∀ c ∈ tokens, c ≠ '\\' := by decide

theorem shieldRun_token {c : Char} (hc : c ∈ tokens) (k : Nat) :
    shieldRun k c = backslashes (k / 2) ++ [if k % 2 = 0 then c else shield c] := by
  rw [shieldRun, isReserved_of_mem_tokens c hc, if_pos (List.contains_iff_mem.mpr hc)]
  rfl

theorem shieldRun_cases (k : Nat) (c : Char) :
    (isReserved c = true ∧ c ∉ tokens ∧ shieldRun k c = backslashes k ++ [literalMark, c]) ∨
    (c ∈ tokens ∧ shieldRun k c = backslashes (k / 2) ++ [if k % 2 = 0 then c else shield c]) ∨
    (isReserved c = false ∧ c ∉ tokens ∧ shieldRun k c = backslashes k ++ [c]) := by
  by_cases ht : c ∈ tokens
  · exact Or.inr (Or.inl ⟨ht, shieldRun_token ht k⟩)
  · have hno : ¬ tokens.contains c = true := mt List.contains_iff_mem.mp ht
    cases hr : isReserved c with
    | true => exact Or.inl ⟨rfl, ht, by rw [shieldRun, if_pos hr]⟩
    | false => exact Or.inr (Or.inr ⟨rfl, ht, by rw [shieldRun, hr, if_neg hno]; rfl⟩)

theorem shieldFrom_eq_rewriteFrom (k : Nat) (t : Text) :
    shieldFrom k t = rewriteFrom shieldRun k t := by
  induction t generalizing k with
  | nil => rfl
  | cons c r ih =>
    simp only [shieldFrom, rewriteFrom, shieldRun, ih]
    by_cases hc : c = '\\'
    · rw [if_pos hc, if_pos hc]
    · rw [if_neg hc, if_neg hc]
      by_cases hr : isReserved c = true
      · simp [hr]
      · by_cases ht : tokens.contains c = true <;> simp only [hr, ht, if_true] <;> simp

theorem shieldEscapes_eq_rewriteRuns (t : Text) : shieldEscapes t = rewriteRuns shieldRun t :=
  shieldFrom_eq_rewriteFrom 0 t

/-- A run writes its own character first only if no backslash stands before it. -/
theorem shieldRun_head (k : Nat) (c : Char) : ∃ d s, shieldRun k c = d :: s ∧
    (d = '\\' ∨ isReserved d = true ∨ (k = 0 ∧ d = c)) := by
  have hself : ∀ n s, backslashes (n + 1) ++ s = '\\' :: (backslashes n ++ s) := fun n s => rfl
  rcases shieldRun_cases k c with ⟨_, _, h⟩ | ⟨ht, h⟩ | ⟨_, _, h⟩
  · rw [h]
    cases k with
    | zero => exact ⟨_, _, rfl, Or.inr (Or.inl (by decide))⟩
    | succ k => exact ⟨_, _, hself k _, Or.inl rfl⟩
  · rw [h]
    rcases Nat.lt_or_ge k 2 with hk | hk
    · have hhalf : k / 2 = 0 := by omega
      rw [hhalf]
      refine ⟨_, [], rfl, ?_⟩
      split
      next => exact Or.inr (Or.inr ⟨by omega, rfl⟩)
      next =>
        have hs : ∀ e ∈ tokens, isReserved (shield e) = true := by decide
        exact Or.inr (Or.inl (hs c ht))
    · obtain ⟨n, hn⟩ : ∃ n, k / 2 = n + 1 := ⟨k / 2 - 1, by omega⟩
      rw [hn]
      exact ⟨_, _, hself n _, Or.inl rfl⟩
  · rw [h]
    cases k with
    | zero => exact ⟨_, _, rfl, Or.inr (Or.inr ⟨rfl, rfl⟩)⟩
    | succ k => exact ⟨_, _, hself k _, Or.inl rfl⟩

theorem shieldEscapes_head (c : Char) (t : Text) : ∃ d s, shieldEscapes (c :: t) = d :: s ∧
    (d = '\\' ∨ isReserved d = true ∨ d = c) := by
  rw [shieldEscapes_eq_rewriteRuns]
  generalize hs : c :: t = s
  cases s using run_induction with
  | last k =>
    cases k with
    | zero => exact absurd hs (List.cons_ne_nil c t)
    | succ k => exact ⟨'\\', backslashes k, rewriteRuns_backslashes shieldRun (k + 1), Or.inl rfl⟩
  | run k d r hd _ =>
    obtain ⟨e, u, he, hcases⟩ := shieldRun_head k d
    rw [rewriteRuns_run _ k hd, he]
    refine ⟨e, u ++ rewriteRuns shieldRun r, rfl, ?_⟩
    rcases hcases with h | h | ⟨rfl, h⟩
    · exact Or.inl h
    · exact Or.inr (Or.inl h)
    · exact Or.inr (Or.inr (h.trans (List.cons.inj hs).1.symm))

/-- A bare token at the start of a shielded text was there before. -/
theorem exists_of_shieldEscapes_eq_cons {c : Char} (hc : c ∈ tokens) {t s : Text}
    (h : shieldEscapes t = c :: s) : ∃ r, t = c :: r ∧ s = shieldEscapes r := by
  have hback := ne_backslash_of_mem_tokens c hc
  have hrun : shieldRun 0 c = [c] := shieldRun_token hc 0
  rw [shieldEscapes_eq_rewriteRuns] at h
  cases t using run_induction with
  | last k =>
    rw [rewriteRuns_backslashes] at h
    have hm : c ∈ backslashes k := by rw [h]; exact List.mem_cons_self
    exact absurd (mem_backslashes.mp hm).2 hback
  | run k d r hd _ =>
    obtain ⟨e, u, he, hcases⟩ := shieldRun_head k d
    rw [rewriteRuns_run _ k hd, he, List.cons_append, List.cons.injEq] at h
    obtain ⟨rfl, rfl⟩ := h
    rcases hcases with hslash | hreserved | ⟨rfl, rfl⟩
    · exact absurd hslash hback
    · rw [isReserved_of_mem_tokens _ hc] at hreserved
      cases hreserved
    · obtain rfl : u = [] := (List.cons.inj (hrun.symm.trans he)).2.symm
      exact ⟨r, rfl, by rw [shieldEscapes_eq_rewriteRuns]; rfl⟩

/-- A token keeps half of the maximal run of backslashes before it, and a last odd one hides it. -/
theorem shieldEscapes_token {x : Text} (hx : x.getLast? ≠ some '\\') {c : Char} (hc : c ∈ tokens)
    (k : Nat) (t : Text) : shieldEscapes (x ++ backslashes k ++ c :: t) =
      shieldEscapes x ++ backslashes (k / 2) ++
        (if k % 2 = 0 then c else shield c) :: shieldEscapes t := by
  simp only [shieldEscapes_eq_rewriteRuns]
  rw [List.append_assoc, rewriteRuns_append shieldRun hx,
    rewriteRuns_run shieldRun k (ne_backslash_of_mem_tokens c hc), shieldRun_token hc]
  simp only [List.append_assoc, List.singleton_append]

theorem shieldEscapes_append {x : Text} (hx : ∀ c ∈ x, c ≠ '\\' ∧ isReserved c = false ∧
    tokens.contains c = false) (t : Text) : shieldEscapes (x ++ t) = x ++ shieldEscapes t := by
  induction x with
  | nil => rfl
  | cons c x ih =>
    obtain ⟨⟨hc, hr, ht⟩, hx⟩ := List.forall_mem_cons.mp hx
    rw [List.cons_append, shieldEscapes, shieldFrom, if_neg hc, hr, ht]
    exact congrArg (List.cons c) (ih hx)

/-- A text that ends in an even number of backslashes, perhaps in none. -/
def EndsEven (a : Text) : Prop :=
  ∃ x k, a = x ++ backslashes (2 * k) ∧ x.getLast? ≠ some '\\'

/-- A token after an even number of backslashes stays bare, and what follows it is shielded by itself. -/
theorem EndsEven.shieldEscapes {a : Text} (h : EndsEven a) {c : Char} (hc : c ∈ tokens) :
    ∃ w, ∀ t, shieldEscapes (a ++ c :: t) = w ++ c :: shieldEscapes t := by
  obtain ⟨x, k, rfl, hx⟩ := h
  refine ⟨Escape.shieldEscapes x ++ backslashes (2 * k / 2), fun t => ?_⟩
  rw [shieldEscapes_token hx hc, if_pos (Nat.mul_mod_right 2 k)]

end LineMarkup.Escape
