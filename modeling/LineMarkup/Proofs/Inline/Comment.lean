import LineMarkup.Proofs.Inline.Site
import LineMarkup.Proofs.Escape.Marked
import LineMarkup.Proofs.Text.Trim

/-!
Comments in a line. From two bare semicolons on, what a line says has no part in its HTML, and it does
not matter to where the comment starts.
-/

namespace LineMarkup.Inline

set_option autoImplicit false

variable {b b' : Text}

theorem startsComment_append (hb : '\n' ∉ b) (hb' : '\n' ∉ b') (w : Text) :
    startsComment (w ++ ';' :: ';' :: b) = startsComment (w ++ ';' :: ';' :: b') := by
  have hw : ∀ t, Text.trimStart (w ++ ';' :: ';' :: t) = Text.trimStart w ++ ';' :: ';' :: t :=
    fun t => Text.trimStart_append_cons (by decide) w _
  rw [startsComment, startsComment, hw, hw]
  generalize Text.trimStart w = u
  -- the two semicolons that start the comment are the ones shown, or one of them stands before these
  match u with
  | [] => simp [Text.after?, hb, hb']
  | [c] =>
    by_cases hc : ';' = c
    · subst hc
      simp [Text.after?, hb, hb']
    · simp [Text.after?, hc]
  | c :: d :: u =>
    by_cases hc : ';' = c
    · subst hc
      by_cases hd : ';' = d
      · subst hd
        simp [Text.after?, hb, hb']
      · simp [Text.after?, hd]
    · simp [Text.after?, hc]

theorem dropComment_append_comment (hb : '\n' ∉ b) (hb' : '\n' ∉ b') (w : Text) :
    dropComment (w ++ ';' :: ';' :: b) = dropComment (w ++ ';' :: ';' :: b') := by
  induction w with
  | nil =>
    have hstart : ∀ t, '\n' ∉ t → startsComment (';' :: ';' :: t) = true := by
      intro t ht
      exact startsComment_iff.mpr ⟨t, Text.trimStart_eq_self_of_head (by decide), ht⟩
    have hnil : ∀ t, '\n' ∉ t → dropComment (';' :: ';' :: t) = [] := by
      intro t ht
      rw [dropComment, if_pos (hstart t ht)]
    rw [List.nil_append, List.nil_append, hnil b hb, hnil b' hb']
  | cons c w ih =>
    have hstart := startsComment_append hb hb' (c :: w)
    rw [List.cons_append, List.cons_append] at hstart ⊢
    rw [dropComment, dropComment, hstart, ih]

/-- The text of a comment has no part in the HTML of a line. -/
theorem convert_append_comment {a : Text} (ha : Escape.EndsEven a) (hb : '\n' ∉ b)
    (hb' : '\n' ∉ b') :
    convert (a ++ ';' :: ';' :: b) = convert (a ++ ';' :: ';' :: b') := by
  have hsemi : ∀ t, Escape.shieldEscapes (';' :: t) = ';' :: Escape.shieldEscapes t := fun _ => rfl
  obtain ⟨w, hw⟩ := ha.shieldEscapes (c := ';') (by decide)
  have hcomment : Rule.comment.apply (Escape.shieldEscapes (a ++ ';' :: ';' :: b)) =
      Rule.comment.apply (Escape.shieldEscapes (a ++ ';' :: ';' :: b')) := by
    rw [hw, hw, hsemi, hsemi]
    exact dropComment_append_comment (Escape.newline_not_mem_shieldEscapes hb)
      (Escape.newline_not_mem_shieldEscapes hb') w
  have hconvert : ∀ t, convert t = Escape.unshield ([Rule.codeSpan, .emphasis, .link, .heading].foldl
      (fun t rule => rule.apply t) (Rule.comment.apply (Escape.shieldEscapes t))) := fun t => by
    rw [convert, Rule.all, List.foldl_cons]
  rw [hconvert, hconvert, hcomment]

end LineMarkup.Inline
