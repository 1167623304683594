import LineMarkup.Proofs.Inline.Marked
import LineMarkup.Proofs.Text.Trim

/-!
Text written literally. Escaping puts one backslash before every token and doubles the backslashes
that stand before it already. A line that is escaped in this way is converted to the text it was
made from, unless that text holds a link.
-/

namespace LineMarkup

set_option autoImplicit false

namespace Escape

/-- Of `k` backslashes before a token escaping makes `2 * k + 1`; all else is kept. -/
def escapeRun (k : Nat) (c : Char) : Nat × Char := (if tokens.contains c then 2 * k + 1 else k, c)

def escape : Text → Text := changeRuns escapeRun

/-- What shielding makes of a character that is written literally. -/
def literalChar (c : Char) : Text :=
  if isReserved c then [literalMark, c] else if tokens.contains c then [shield c] else [c]

theorem escape_append {x : Text} (hx : ∀ c ∈ x, c ≠ '\\' ∧ tokens.contains c = false) (t : Text) :
    escape (x ++ t) = x ++ escape t := by
  induction x with
  | nil => rfl
  | cons c x ih =>
    obtain ⟨⟨hc, ht⟩, hx⟩ := List.forall_mem_cons.mp hx
    have h := rewriteRuns_run (fun k c => backslashes (escapeRun k c).1 ++ [(escapeRun k c).2]) 0 hc
      (x ++ t)
    rw [escapeRun, ht] at h
    rw [List.cons_append, List.cons_append, ← ih hx]
    exact h

/-- An escaped text starts with a backslash where a token started the text. -/
theorem escape_cons (c : Char) (t : Text) :
    ∃ r, escape (c :: t) = (if tokens.contains c then '\\' else c) :: r := by
  generalize hs : c :: t = s
  have hself : ∀ k, backslashes (k + 1) = '\\' :: backslashes k := fun k => List.replicate_succ
  have hslash : tokens.contains '\\' = false := by decide
  cases s using run_induction with
  | last k =>
    cases k with
    | zero => exact absurd hs (List.cons_ne_nil c t)
    | succ k =>
      rw [hself] at hs
      rw [(List.cons.inj hs).1, hslash]
      exact ⟨backslashes k, by rw [escape, changeRuns, rewriteRuns_backslashes, hself]; rfl⟩
  | run k d s hd _ =>
    rw [escape, changeRuns, rewriteRuns_run _ k hd]
    cases k with
    | zero =>
      rw [(List.cons.inj hs).1]
      by_cases ht : tokens.contains d = true
      · exact ⟨_, by simp only [escapeRun, if_pos ht]; rfl⟩
      · exact ⟨_, by simp only [escapeRun, if_neg ht]; rfl⟩
    | succ k =>
      rw [hself] at hs
      rw [(List.cons.inj hs).1, hslash]
      by_cases ht : tokens.contains d = true
      · exact ⟨_, by simp only [escapeRun, if_pos ht]; rfl⟩
      · exact ⟨_, by simp only [escapeRun, if_neg ht]; rfl⟩

theorem shieldEscapes_escape (t : Text) : shieldEscapes (escape t) = t.flatMap literalChar := by
  have hback : literalChar '\\' = ['\\'] := by decide
  calc shieldEscapes (escape t)
      = rewriteRuns (fun k c => shieldRun (escapeRun k c).1 (escapeRun k c).2) t := by
        rw [shieldEscapes_eq_rewriteRuns, escape, rewriteRuns_changeRuns fun _ _ hc => hc]
    _ = rewriteRuns (fun k c => (backslashes k ++ [c]).flatMap literalChar) t := by
        apply rewriteRuns_congr
        intro k c _ _
        rw [List.flatMap_append, flatMap_backslashes hback, List.flatMap_singleton, literalChar,
          escapeRun, shieldRun]
        by_cases hr : isReserved c = true
        · have ht : tokens.contains c = false := by
            rw [Bool.eq_false_iff]
            intro ht
            have hf := isReserved_of_mem_tokens c (List.contains_iff_mem.mp ht)
            exact Bool.noConfusion (hf.symm.trans hr)
          rw [if_pos hr, if_pos hr, ht]
          rfl
        · by_cases ht : tokens.contains c = true
          · have hodd : ¬ (2 * k + 1) % 2 = 0 := by omega
            have hhalf : (2 * k + 1) / 2 = k := by omega
            simp only [if_neg hr, if_pos ht, if_neg hodd, hhalf]
          · simp only [if_neg hr, if_neg ht]
    _ = (rewriteRuns (fun k c => backslashes k ++ [c]) t).flatMap literalChar :=
        (rewriteRuns_flatMap hback t).symm
    _ = t.flatMap literalChar := by rw [rewriteRuns_eq_self]

theorem unshield_literalChar (c : Char) (t : Text) :
    unshield (literalChar c ++ t) = c :: unshield t := by
  rw [literalChar]
  split
  next => exact unshield_literal c t
  next hr =>
    have hc : isReserved c = false := by simpa using hr
    split
    next ht =>
      have hs := mem_shields_of_mem_tokens c (List.contains_iff_mem.mp ht)
      rw [List.singleton_append, unshield_cons (isReserved_of_mem_shields _ hs).2.2,
        unshieldChar_of_mem_shields _ hs]
    next => rw [List.singleton_append, unshield_cons (ne_literalMark hc), unshieldChar_eq_self hc]

theorem unshield_literalChars (t : Text) : unshield (t.flatMap literalChar) = t := by
  induction t with
  | nil => rfl
  | cons c t ih => rw [List.flatMap_cons, unshield_literalChar, ih]

theorem mem_literalChar {c d : Char} (hd : isReserved d = false) :
    d ∈ literalChar c ↔ d = c ∧ tokens.contains c = false := by
  rw [literalChar]
  split
  next hr =>
    constructor
    · intro hm
      rcases List.mem_cons.mp hm with rfl | hm
      · exact absurd hd (by decide)
      · rw [List.mem_singleton.mp hm, hr] at hd
        exact absurd hd (by decide)
    · rintro ⟨rfl, _⟩
      exact Bool.noConfusion (hd.symm.trans hr)
  next =>
    split
    next ht =>
      have hs := mem_shields_of_mem_tokens c (List.contains_iff_mem.mp ht)
      rw [List.mem_singleton, ht]
      constructor
      · rintro rfl
        exact Bool.noConfusion (hd.symm.trans (isReserved_of_mem_shields _ hs).2.1)
      · simp
    next ht => rw [List.mem_singleton, and_iff_left (Bool.eq_false_iff.mpr ht)]

theorem token_not_mem_literalChars {c : Char} (hc : c ∈ tokens) (t : Text) :
    c ∉ t.flatMap literalChar := by
  intro hm
  obtain ⟨d, _, hd⟩ := List.mem_flatMap.mp hm
  obtain ⟨rfl, ht⟩ := (mem_literalChar (isReserved_of_mem_tokens c hc)).mp hd
  rw [List.contains_iff_mem.mpr hc] at ht
  exact absurd ht (by decide)

theorem keeps_literalChar {c : Char} (hr : isReserved c = false) (ht : tokens.contains c = false) :
    Text.Keeps literalChar c where
  same := by simp only [literalChar, hr, ht]; rfl
  apart := fun d hd hm => hd ((mem_literalChar hr).mp hm).1.symm

theorem literalChar_ne_nil (c : Char) : literalChar c ≠ [] := by
  rw [literalChar]
  split
  · simp
  · split <;> simp

end Escape

namespace Inline

open Escape (escape literalChar)

theorem holdsLink_of_literalChars {t : Text} (h : HoldsLink (t.flatMap literalChar)) :
    HoldsLink t := by
  have hnil : ∀ s : Text, s.flatMap literalChar = [] ↔ s = [] := by
    intro s
    cases s with
    | nil => simp
    | cons c s => simp [Escape.literalChar_ne_nil c]
  have kept : ∀ c ∈ ['[', ']', '(', ')'], Text.Keeps literalChar c := fun c hc =>
    Escape.keeps_literalChar
      ((by decide : ∀ c ∈ ['[', ']', '(', ')'], Escape.isReserved c = false) c hc)
      ((by decide : ∀ c ∈ ['[', ']', '(', ')'], Escape.tokens.contains c = false) c hc)
  obtain ⟨before, label, target, after, ht, hl, hb, hne, hp⟩ := h
  obtain ⟨u, v, rfl, _, hv⟩ := (kept '[' (by decide)).split ht
  obtain ⟨l, w, rfl, rfl, hw⟩ := (kept ']' (by decide)).split hv
  obtain ⟨o, x, rfl, ho, hx⟩ := (kept '(' (by decide)).split (x := []) hw
  obtain ⟨g, y, rfl, rfl, _⟩ := (kept ')' (by decide)).split hx
  rw [(hnil o).mp ho]
  refine ⟨u, l, g, y, rfl, ?_, ?_, ?_, ?_⟩
  · exact fun he => hl ((hnil l).mpr he)
  · exact fun hm => hb ((kept ']' (by decide)).mem_flatMap.mpr hm)
  · exact fun he => hne ((hnil g).mpr he)
  · exact fun hm => hp ((kept ')' (by decide)).mem_flatMap.mpr hm)

/-- No rule finds anything in an escaped text without links. -/
theorem convert_escape {t : Text} (h : ¬ HoldsLink t) : convert (escape t) = t := by
  have absent : ∀ c ∈ Escape.tokens, c ∉ t.flatMap literalChar := fun c hc =>
    Escape.token_not_mem_literalChars hc t
  have hcomment : Rule.comment.apply (t.flatMap literalChar) = t.flatMap literalChar :=
    dropComment_eq_self (absent ';' (by decide))
  have hcode : Rule.codeSpan.apply (t.flatMap literalChar) = t.flatMap literalChar :=
    replaceAll_pair_eq_self (absent '\x60' (by decide))
  have hemphasis : Rule.emphasis.apply (t.flatMap literalChar) = t.flatMap literalChar :=
    replaceAll_pair_eq_self (absent '*' (by decide))
  have hlink : Rule.link.apply (t.flatMap literalChar) = t.flatMap literalChar :=
    apply_link_eq_self fun hl => h (holdsLink_of_literalChars hl)
  have hheading : Rule.heading.apply (t.flatMap literalChar) = t.flatMap literalChar :=
    wrapHeading_eq_self (absent '#' (by decide))
  rw [convert, Escape.shieldEscapes_escape, Rule.all, List.foldl_cons, List.foldl_cons,
    List.foldl_cons, List.foldl_cons, List.foldl_cons, List.foldl_nil, hcomment, hcode, hemphasis,
    hlink, hheading, Escape.unshield_literalChars]

end Inline

end LineMarkup
