import LineMarkup.Proofs.Escape.Marked

/-!
Shielding undone. A text that is shielded and unshielded loses half of every run of backslashes before a
token and nothing else, also if a part of it has been hidden in between. The placeholders in a shielded
text are those of the tokens after odd runs, and its literal marks stand before reserved characters.
-/

namespace LineMarkup.Escape

set_option autoImplicit false

/-- Of `k` backslashes before a token half are left, rounded down; all else is kept. -/
def unescapeRun (k : Nat) (c : Char) : Nat × Char := (if tokens.contains c then k / 2 else k, c)

def unescape : Text → Text := changeRuns unescapeRun

/-- A text ends in a literal mark that is not marked itself, and is therefore about what comes next. -/
def endsInMark (t : Text) : Bool := t.foldl (fun marked c => !marked && c = literalMark) false

/-- Between `x` and `y` a text has a maximal run of `k` backslashes and the token `c` after it. -/
structure TokenAt (t x : Text) (k : Nat) (c : Char) (y : Text) : Prop where
  eq : t = x ++ backslashes k ++ c :: y
  maximal : x.getLast? ≠ some '\\'
  token : c ∈ tokens

/-- What shielding puts in the place of tokens, and of the brackets that are hidden in code spans. -/
def placeholders : List Char := shields.map (·.2)

variable {t x y u v : Text} {c p : Char} {k : Nat}

theorem unescape_backslashes (k : Nat) : unescape (backslashes k) = backslashes k :=
  rewriteRuns_backslashes _ k

theorem unescape_run (k : Nat) (hc : c ≠ '\\') (t : Text) :
    unescape (backslashes k ++ c :: t) = backslashes (unescapeRun k c).1 ++ c :: unescape t := by
  rw [unescape, changeRuns, rewriteRuns_run _ k hc, List.append_assoc]
  rfl

theorem unshield_shieldRun (k : Nat) (c : Char) :
    unshield (shieldRun k c) = backslashes (unescapeRun k c).1 ++ [c] := by
  rcases shieldRun_cases k c with ⟨_, ht, h⟩ | ⟨ht, h⟩ | ⟨hr, ht, h⟩
  · have hrun : unescapeRun k c = (k, c) := by simp [unescapeRun, ht]
    rw [h, hrun, unshield_append (marked_backslashes k), unshield_backslashes, unshield_literal]
    rfl
  · have hr := isReserved_of_mem_tokens c ht
    have hc := ne_literalMark hr
    have hrun : unescapeRun k c = (k / 2, c) := by simp [unescapeRun, ht]
    rw [h, hrun, unshield_append (marked_backslashes _), unshield_backslashes]
    split
    next => rw [unshield_cons hc, unshieldChar_eq_self hr]; rfl
    next =>
      rw [unshield_cons (shield_ne_literalMark hc), unshieldChar_shield, unshieldChar_eq_self hr]
      rfl
  · have hrun : unescapeRun k c = (k, c) := by simp [unescapeRun, ht]
    rw [h, hrun, unshield_append (marked_backslashes k), unshield_backslashes,
      unshield_cons (ne_literalMark hr), unshieldChar_eq_self hr]
    rfl

theorem unshield_shieldEscapes (t : Text) : unshield (shieldEscapes t) = unescape t := by
  rw [shieldEscapes_eq_rewriteRuns]
  induction t using run_induction with
  | last k => rw [rewriteRuns_backslashes, unshield_backslashes, unescape_backslashes]
  | run k c t hc ih =>
    rw [rewriteRuns_run _ k hc, unshield_append (marked_shieldRun k), unshield_shieldRun, ih,
      unescape_run k hc, List.append_assoc, List.singleton_append]

/-- Shielding and unshielding brings nothing into a text. -/
theorem mem_unshield_shieldEscapes {d : Char} (h : d ∈ unshield (shieldEscapes t)) : d ∈ t := by
  rw [unshield_shieldEscapes] at h
  induction t using run_induction with
  | last k =>
    rwa [unescape_backslashes] at h
  | run k c t hc ih =>
    rw [unescape_run k hc, List.mem_append, List.mem_cons, mem_backslashes] at h
    rw [List.mem_append, List.mem_cons, mem_backslashes]
    rcases h with ⟨hk, hd⟩ | hd | hd
    · refine Or.inl ⟨?_, hd⟩
      rintro rfl
      exact hk (by simp [unescapeRun])
    · exact Or.inr (Or.inl hd)
    · exact Or.inr (Or.inr (ih hd))

theorem endsInMark_cons (hc : c ≠ literalMark) (t : Text) : endsInMark (c :: t) = endsInMark t := by
  simp [endsInMark, hc]

theorem endsInMark_literal (c : Char) (t : Text) :
    endsInMark (literalMark :: c :: t) = endsInMark t := by
  simp [endsInMark]

theorem Marked.endsInMark_append (hx : Marked x) (y : Text) : endsInMark (x ++ y) = endsInMark y := by
  induction hx with
  | nil => rfl
  | plain hc _ ih => rw [List.cons_append, endsInMark_cons hc, ih]
  | literal _ _ ih => rw [List.cons_append, List.cons_append, endsInMark_literal, ih]

theorem Marked.endsInMark (hx : Marked x) : Escape.endsInMark x = false := by
  have h := hx.endsInMark_append []
  rwa [List.append_nil] at h

/-- A marked text falls into two of them wherever no mark is parted from its character. -/
theorem Marked.parts (h : Marked (x ++ y)) (hx : Escape.endsInMark x = false) : Marked x ∧ Marked y := by
  rcases h.append_cases with h | ⟨x', c, y', rfl, _, hx', _⟩
  · exact h
  · rw [hx'.endsInMark_append] at hx
    cases hx

/-- A mark that is not marked itself stands before a reserved character. -/
theorem exists_reserved_of_mark (h : shieldEscapes t = x ++ literalMark :: y)
    (hx : endsInMark x = false) : ∃ c r, y = c :: r ∧ isReserved c = true := by
  have hm := marked_shieldEscapes t
  rw [h] at hm
  cases (hm.parts hx).2 with
  | plain hc _ => exact absurd rfl hc
  | @literal c r hc _ => exact ⟨c, r, rfl, hc⟩

/-- A token or a placeholder that a run writes stands at its end, and the run is that of a token. -/
theorem shieldRun_eq_append_cons {w : Text} (h : shieldRun k c = u ++ p :: w)
    (hu : endsInMark u = false) (hp : p ∈ tokens ∨ p ∈ placeholders) : c ∈ tokens ∧
      u = backslashes (k / 2) ∧ p = (if k % 2 = 0 then c else shield c) ∧ w = [] := by
  have hplain : ∀ q ∈ tokens ++ placeholders, q ≠ '\\' ∧ q ≠ literalMark := by decide
  obtain ⟨hback, hmark⟩ := hplain p (List.mem_append.mpr hp)
  have hnot : ∀ n, p ∉ backslashes n := fun n hm => hback (mem_backslashes.mp hm).2
  rcases shieldRun_cases k c with ⟨_, _, hs⟩ | ⟨ht, hs⟩ | ⟨hr, ht, hs⟩
  · obtain ⟨a, rfl, ha⟩ := Text.append_cons_of_not_mem (hnot k) (hs.symm.trans h)
    rw [(marked_backslashes k).endsInMark_append] at hu
    cases a with
    | nil => exact absurd (List.cons.inj ha).1.symm hmark
    | cons b a =>
      obtain ⟨rfl, hrest⟩ := List.cons.inj ha
      obtain ⟨rfl, _⟩ | ⟨_, hnil⟩ := List.append_eq_singleton_iff.mp hrest.symm
      · -- The character of the run is marked, so what stands before it ends in a mark.
        cases hu
      · cases hnil
  · obtain ⟨a, rfl, ha⟩ := Text.append_cons_of_not_mem (hnot (k / 2)) (hs.symm.trans h)
    obtain ⟨rfl, hw⟩ | ⟨_, hnil⟩ := List.append_eq_singleton_iff.mp ha.symm
    · obtain ⟨rfl, rfl⟩ := List.cons.inj hw
      exact ⟨ht, List.append_nil _, rfl, rfl⟩
    · cases hnil
  · obtain ⟨a, rfl, ha⟩ := Text.append_cons_of_not_mem (hnot k) (hs.symm.trans h)
    obtain ⟨rfl, hw⟩ | ⟨_, hnil⟩ := List.append_eq_singleton_iff.mp ha.symm
    · obtain ⟨rfl, rfl⟩ := List.cons.inj hw
      rcases hp with hp | hp
      · exact absurd hp ht
      · obtain ⟨q, hq, rfl⟩ := List.mem_map.mp hp
        rw [(isReserved_of_mem_shields q hq).2.1] at hr
        cases hr
    · cases hnil

/-- Every bare token of a shielded text, and every placeholder that is not marked, comes from a token. -/
theorem exists_tokenAt (h : shieldEscapes t = u ++ p :: v) (hu : endsInMark u = false)
    (hp : p ∈ tokens ∨ p ∈ placeholders) : ∃ x k c y, TokenAt t x k c y ∧
      u = shieldEscapes x ++ backslashes (k / 2) ∧ p = (if k % 2 = 0 then c else shield c) ∧
      v = shieldEscapes y := by
  simp only [shieldEscapes_eq_rewriteRuns] at h ⊢
  induction t using run_induction generalizing u with
  | last k =>
    have hplain : ∀ q ∈ tokens ++ placeholders, q ≠ '\\' := by decide
    have hm : p ∈ backslashes k := by
      rw [← rewriteRuns_backslashes shieldRun k, h]
      simp
    exact absurd (mem_backslashes.mp hm).2 (hplain p (List.mem_append.mpr hp))
  | run k c t hc ih =>
    rw [rewriteRuns_run _ k hc] at h
    rcases Text.append_cons_cases h with ⟨w, hrun, rfl⟩ | ⟨w, rfl, ht⟩
    · obtain ⟨hc', rfl, hshown, rfl⟩ := shieldRun_eq_append_cons hrun hu hp
      exact ⟨[], k, c, t, ⟨rfl, by simp, hc'⟩, rfl, hshown, rfl⟩
    · -- No mark of a run is about what follows the run, so the rest is cut by itself.
      rw [(marked_shieldRun k).endsInMark_append] at hu
      obtain ⟨x, n, d, y, ⟨rfl, hx, hd⟩, rfl, hshown, hv⟩ := ih hu ht
      refine ⟨backslashes k ++ c :: x, n, d, y, ⟨by simp, ?_, hd⟩, ?_, hshown, hv⟩
      · cases x with
        | nil => simpa using hc
        | cons b x => simpa [List.getLast?_append, List.getLast?_cons_cons] using hx
      · rw [rewriteRuns_run _ k hc, List.append_assoc]

theorem endsInMark_shieldEscapes (x : Text) (k : Nat) :
    endsInMark (shieldEscapes x ++ backslashes k) = false :=
  ((marked_shieldEscapes x).append (marked_backslashes k)).endsInMark

theorem placeholder_iff : (shieldEscapes t = u ++ p :: v ∧ endsInMark u = false ∧ p ∈ placeholders) ↔
    ∃ x k c y, TokenAt t x (2 * k + 1) c y ∧
      u = shieldEscapes x ++ backslashes k ∧ p = shield c ∧ v = shieldEscapes y := by
  constructor
  · rintro ⟨ht, hu, hp⟩
    obtain ⟨x, k, c, y, h, rfl, hshown, rfl⟩ := exists_tokenAt ht hu (Or.inr hp)
    split at hshown
    next =>
      obtain ⟨q, hq, rfl⟩ := List.mem_map.mp hp
      have hr := (isReserved_of_mem_shields q hq).2.1
      rw [hshown, isReserved_of_mem_tokens c h.token] at hr
      cases hr
    next hodd =>
      have hk : k = 2 * (k / 2) + 1 := by omega
      exact ⟨x, k / 2, c, y, hk ▸ h, rfl, hshown, rfl⟩
  · rintro ⟨x, k, c, y, ⟨rfl, hx, hc⟩, rfl, rfl, rfl⟩
    refine ⟨?_, endsInMark_shieldEscapes x k, List.mem_map.mpr ⟨_, mem_shields_of_mem_tokens c hc, rfl⟩⟩
    have hhalf : (2 * k + 1) / 2 = k := by omega
    have hodd : ¬ (2 * k + 1) % 2 = 0 := by omega
    rw [shieldEscapes_token hx hc, hhalf, if_neg hodd]

theorem bareToken_iff : (shieldEscapes t = u ++ c :: v ∧ c ∈ tokens) ↔
    ∃ x k y, TokenAt t x (2 * k) c y ∧
      u = shieldEscapes x ++ backslashes k ∧ v = shieldEscapes y := by
  constructor
  · rintro ⟨ht, hc⟩
    have hu : Marked u := by
      have hm := marked_shieldEscapes t
      rw [ht] at hm
      exact (hm.split (isReserved_of_mem_tokens c hc)).1
    obtain ⟨x, k, d, y, h, rfl, hshown, rfl⟩ := exists_tokenAt ht hu.endsInMark (Or.inl hc)
    split at hshown
    next heven =>
      have hk : k = 2 * (k / 2) := by omega
      exact ⟨x, k / 2, y, hk ▸ hshown ▸ h, rfl, rfl⟩
    next =>
      have hr := (isReserved_of_mem_shields _ (mem_shields_of_mem_tokens d h.token)).2.1
      rw [← hshown, isReserved_of_mem_tokens c hc] at hr
      cases hr
  · rintro ⟨x, k, y, ⟨rfl, hx, hc⟩, rfl, rfl⟩
    refine ⟨?_, hc⟩
    have hhalf : 2 * k / 2 = k := by omega
    rw [shieldEscapes_token hx hc, hhalf, if_pos (Nat.mul_mod_right 2 k)]

theorem unshield_append_shieldText (hx : Marked x) (hy : Marked y) (z : Text) :
    unshield (x ++ shieldText y ++ z) = unshield (x ++ y ++ z) := by
  rw [unshield_append (hx.append hy.shieldText), unshield_append (hx.append hy), unshield_append hx,
    unshield_append hx, unshield_shieldText hy]

/-- Unshielding gives a shielded text back with half of the backslashes before its tokens, also if a part
of it that leaves every mark its character has been hidden. In the shielded text a mark, unless it is
marked, stands before a reserved character; its placeholders stand for the tokens after odd runs of
backslashes, and its bare tokens are those after even runs. -/
theorem shielding_undone (t : Text) :
    unshield (shieldEscapes t) = unescape t ∧
    (∀ u v, shieldEscapes t = u ++ literalMark :: v → endsInMark u = false →
      ∃ c r, v = c :: r ∧ isReserved c = true) ∧
    (∀ u p v, (shieldEscapes t = u ++ p :: v ∧ endsInMark u = false ∧ p ∈ placeholders) ↔
      ∃ x k c y, TokenAt t x (2 * k + 1) c y ∧
        u = shieldEscapes x ++ backslashes k ∧ p = shield c ∧ v = shieldEscapes y) ∧
    (∀ u c v, (shieldEscapes t = u ++ c :: v ∧ c ∈ tokens) ↔
      ∃ x k y, TokenAt t x (2 * k) c y ∧
        u = shieldEscapes x ++ backslashes k ∧ v = shieldEscapes y) ∧
    ∀ x y z, shieldEscapes t = x ++ y ++ z → endsInMark x = false → endsInMark (x ++ y) = false →
      unshield (x ++ shieldText y ++ z) = unescape t := by
  refine ⟨unshield_shieldEscapes t, fun u v => exists_reserved_of_mark,
    fun u p v => placeholder_iff, fun u c v => bareToken_iff, ?_⟩
  intro x y z ht hx hxy
  have hm := marked_shieldEscapes t
  rw [ht] at hm
  obtain ⟨hmx, hmy⟩ := (hm.parts hxy).1.parts hx
  rw [unshield_append_shieldText hmx hmy, ← ht, unshield_shieldEscapes]

theorem shielding_undone_marked :
    (shieldEscapes "\\\\\\#\uE008*[".toList = "\\\uE000".toList ++ literalMark :: "\uE008*[".toList ∧
      endsInMark "\\\uE000".toList = false ∧
      ∃ c r, "\uE008*[".toList = c :: r ∧ isReserved c = true) ∧
    (shieldEscapes "\\\\\\#\uE008*[".toList =
        "\\\uE000".toList ++ "\uE008\uE008*".toList ++ "[".toList ∧
      endsInMark ("\\\uE000".toList ++ "\uE008\uE008*".toList) = false ∧
      unshield ("\\\uE000".toList ++ shieldText "\uE008\uE008*".toList ++ "[".toList) =
        "\\#\uE008*[".toList) := by
  obtain ⟨_, hmark, _, _, hpart⟩ := shielding_undone "\\\\\\#\uE008*[".toList
  have hcut : shieldEscapes "\\\\\\#\uE008*[".toList =
      "\\\uE000".toList ++ literalMark :: "\uE008*[".toList := by decide
  have hparts : shieldEscapes "\\\\\\#\uE008*[".toList =
      "\\\uE000".toList ++ "\uE008\uE008*".toList ++ "[".toList := by decide
  have hopen : endsInMark "\\\uE000".toList = false := by decide
  have hclosed : endsInMark ("\\\uE000".toList ++ "\uE008\uE008*".toList) = false := by decide
  refine ⟨⟨hcut, hopen, hmark _ _ hcut hopen⟩, hparts, hclosed, ?_⟩
  exact (hpart _ _ _ hparts hopen hclosed).trans (by decide)

end LineMarkup.Escape
