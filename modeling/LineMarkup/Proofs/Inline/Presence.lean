import LineMarkup.Line
import LineMarkup.Proofs.Inline.Marked
import LineMarkup.Proofs.Text.Trim

/-!
What is left of a line. Only a comment can take anything away, and it takes a whole line only if the
line starts with two bare semicolons; so paragraph text never comes to nothing.
-/

namespace LineMarkup.Inline

set_option autoImplicit false

open Escape (Marked isReserved tokens shieldEscapes)

theorem plain_of_isSpace {c : Char} (h : Text.isSpace c = true) :
    c ≠ '\\' ∧ isReserved c = false ∧ tokens.contains c = false := by
  have hdark : ∀ d ∈ '\\' :: tokens, Text.isSpace d = false := by decide
  refine ⟨?_, isReserved_of_isSpace h, ?_⟩
  · intro he
    subst he
    exact absurd h (by decide)
  · rw [Bool.eq_false_iff]
    intro ht
    have hc := hdark c (List.mem_cons_of_mem _ (List.contains_iff_mem.mp ht))
    rw [h] at hc
    exact absurd hc (by decide)

/-- A shielded text starts with a comment only if the comment was bare in the text itself. -/
theorem exists_of_startsComment_shieldEscapes {t : Text}
    (h : startsComment (shieldEscapes t) = true) :
    ∃ x r, (∀ c ∈ x, Text.isSpace c = true) ∧ t = x ++ ';' :: ';' :: r := by
  have hx : ∀ c ∈ t.takeWhile Text.isSpace, Text.isSpace c = true :=
    List.all_eq_true.mp List.all_takeWhile
  have hsplit : t = t.takeWhile Text.isSpace ++ t.dropWhile Text.isSpace :=
    List.takeWhile_append_dropWhile.symm
  obtain ⟨rest, hrest, _⟩ := startsComment_iff.mp h
  rw [hsplit, Escape.shieldEscapes_append fun c hc => plain_of_isSpace (hx c hc), Text.trimStart,
    List.dropWhile_append_of_pos hx] at hrest
  cases hd : t.dropWhile Text.isSpace with
  | nil =>
    rw [hd] at hrest
    exact absurd hrest (List.cons_ne_nil _ _).symm
  | cons c y =>
    have hc : Text.isSpace c = false := by
      have hne : t.dropWhile Text.isSpace ≠ [] := by rw [hd]; exact List.cons_ne_nil c y
      simpa only [hd, List.head_cons] using List.head_dropWhile_not Text.isSpace hne
    obtain ⟨d, s, hs, hhead⟩ := Escape.shieldEscapes_head c y
    have hdark : Text.isSpace d = false := by
      rcases hhead with rfl | hr | rfl
      · decide
      · exact (dark_of_isReserved hr).2
      · exact hc
    rw [hd, hs, List.dropWhile_cons_of_neg (by simp [hdark]), ← hs] at hrest
    obtain ⟨r, hr, hrest⟩ := Escape.exists_of_shieldEscapes_eq_cons (by decide) hrest
    obtain ⟨u, rfl, _⟩ := Escape.exists_of_shieldEscapes_eq_cons (by decide) hrest.symm
    exact ⟨t.takeWhile Text.isSpace, u, hx, by rw [← hr, ← hd]; exact hsplit⟩

theorem dropComment_ne_nil {t : Text} (ht : t ≠ []) (h : startsComment t = false) :
    dropComment t ≠ [] := by
  obtain ⟨c, r, rfl⟩ := List.exists_cons_of_ne_nil ht
  rw [dropComment, h]
  exact List.cons_ne_nil _ _

theorem wrapHeading_ne_nil {t : Text} (ht : t ≠ []) : wrapHeading t ≠ [] := by
  by_cases hp : headingMarks t = [] ∨ '\n' ∈ headingTitle t
  · rwa [wrapHeading_of_plain hp]
  · obtain ⟨hm, hn⟩ := not_or.mp hp
    rw [wrapHeading_of_marks hm hn]
    simp [openHeading]

/-- Every rule but the one for comments leaves something of what it is given. -/
theorem Rule.apply_ne_nil (rule : Rule) (hrule : rule ≠ .comment) {t : Text} (ht : t ≠ []) :
    rule.apply t ≠ [] := by
  cases rule with
  | comment => exact absurd rfl hrule
  | codeSpan =>
    exact Text.replaceAll_ne_nil (fun _ => List.append_ne_nil_of_right_ne_nil _ (by decide)) ht
  | emphasis =>
    exact Text.replaceAll_ne_nil (fun _ => List.append_ne_nil_of_right_ne_nil _ (by decide)) ht
  | link =>
    exact Text.replaceAll_ne_nil (fun _ => List.append_ne_nil_of_right_ne_nil _ (by decide)) ht
  | heading => exact wrapHeading_ne_nil ht

theorem applyAll_ne_nil {rules : List Rule} (h : ∀ rule ∈ rules, rule ≠ .comment) {t : Text}
    (ht : t ≠ []) : rules.foldl (fun t rule => rule.apply t) t ≠ [] := by
  induction rules generalizing t with
  | nil => exact ht
  | cons rule rules ih =>
    obtain ⟨hrule, hrules⟩ := List.forall_mem_cons.mp h
    exact ih hrules (rule.apply_ne_nil hrule ht)

theorem unshield_ne_nil {t : Text} (ht : t ≠ []) (h : Marked t) : Escape.unshield t ≠ [] := by
  cases h with
  | nil => exact absurd rfl ht
  | plain hc _ =>
    rw [Escape.unshield_cons hc]
    exact List.cons_ne_nil _ _
  | literal _ _ =>
    rw [Escape.unshield_literal]
    exact List.cons_ne_nil _ _

theorem convert_ne_nil {t : Text} (ht : t ≠ []) (h : startsComment (shieldEscapes t) = false) :
    convert t ≠ [] := by
  have hs : shieldEscapes t ≠ [] := by
    obtain ⟨c, r, rfl⟩ := List.exists_cons_of_ne_nil ht
    obtain ⟨d, s, hd, _⟩ := Escape.shieldEscapes_head c r
    rw [hd]
    exact List.cons_ne_nil d s
  apply unshield_ne_nil _ (marked_applyAll Rule.all (Escape.marked_shieldEscapes t))
  rw [Rule.all, List.foldl_cons]
  exact applyAll_ne_nil (by decide) (dropComment_ne_nil hs h)

end LineMarkup.Inline
