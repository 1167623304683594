import LineMarkup.Proofs.Document.Line

/-!
Lines put into a document. A line that is no paragraph text, put where it does not part two lines of a
paragraph, leaves all other lines and tags as they are and adds what it comes to itself. A comment comes
to nothing; white space comes to nothing only if there is none.
-/

namespace LineMarkup

set_option autoImplicit false

variable {before after : List Line} {line : Line}

namespace Text

theorem length_join (sep : Text) (ts : List Text) :
    (join sep ts).length = ts.flatten.length + (ts.length - 1) * sep.length := by
  induction ts with
  | nil => simp [join]
  | cons t ts ih =>
    cases ts with
    | nil => simp [join]
    | cons u rest =>
      rw [join, List.length_append, List.length_append, ih]
      simp only [List.flatten_cons, List.length_append, List.length_cons, Nat.add_sub_cancel,
        Nat.add_mul, Nat.one_mul]
      omega

/-- A text that is not empty shows wherever it is joined in. -/
theorem join_insert_ne {t : Text} (ht : t ≠ []) (sep : Text) (front back : List Text) :
    join sep (front ++ t :: back) ≠ join sep (front ++ back) := by
  intro h
  have hlength := congrArg List.length h
  have ht := List.length_pos_iff.mpr ht
  have hseps : ((front ++ back).length - 1) * sep.length ≤
      ((front ++ t :: back).length - 1) * sep.length := by
    apply Nat.mul_le_mul_right
    simp only [List.length_append, List.length_cons]
    omega
  rw [length_join, length_join] at hlength
  simp only [List.flatten_append, List.flatten_cons, List.length_append] at hlength hseps
  omega

end Text

/-- Two lines of paragraph text meet between these. -/
def Adjoin (before after : List Line) : Prop :=
  (∃ line ∈ before.getLast?, line.isParagraph = true) ∧ ∃ line ∈ after.head?, line.isParagraph = true

instance (before after : List Line) : Decidable (Adjoin before after) :=
  inferInstanceAs (Decidable ((∃ line ∈ before.getLast?, line.isParagraph = true) ∧
    ∃ line ∈ after.head?, line.isParagraph = true))

namespace Paragraph

theorem exists_tagFrom_cons (inside : Bool) (line : Line) : ∃ front, ∀ rest,
    tagFrom inside (line :: rest) = front ++ tagFrom line.isParagraph rest := by
  cases hline : line.isParagraph <;> cases inside
  · exact ⟨[line], fun rest => by simp [tagFrom, hline]⟩
  · exact ⟨[closeTag, line], fun rest => by simp [tagFrom, hline]⟩
  · exact ⟨[openTag, line], fun rest => by simp [tagFrom, hline]⟩
  · exact ⟨[line], fun rest => by simp [tagFrom, hline]⟩

/-- What tagging makes of the first lines depends on what follows only in that a paragraph may go on. -/
theorem exists_tagFrom_append (inside : Bool) (before : List Line) : ∃ front, ∀ after,
    tagFrom inside (before ++ after) =
      front ++ tagFrom (before.foldl (fun _ line => line.isParagraph) inside) after := by
  induction before generalizing inside with
  | nil => exact ⟨[], fun after => rfl⟩
  | cons line rest ih =>
    obtain ⟨first, hfirst⟩ := exists_tagFrom_cons inside line
    obtain ⟨front, hfront⟩ := ih line.isParagraph
    refine ⟨first ++ front, fun after => ?_⟩
    rw [List.cons_append, hfirst, hfront, List.append_assoc]
    rfl

theorem foldl_isParagraph_eq_true (h : before.foldl (fun _ line => line.isParagraph) false = true) :
    ∃ line ∈ before.getLast?, line.isParagraph = true := by
  rcases List.eq_nil_or_concat before with rfl | ⟨init, last, rfl⟩
  · exact absurd h (by decide)
  · rw [List.concat_eq_append, List.foldl_append] at h
    exact ⟨last, by simp, h⟩

/-- A paragraph that does not go on is closed in front of what follows. -/
theorem tagFrom_true_of_apart (h : ∀ line ∈ after.head?, line.isParagraph = false) :
    tagFrom true after = closeTag :: tag after := by
  cases after with
  | nil => rfl
  | cons line rest =>
    have hline := h line rfl
    simp [tag, tagFrom, hline]

/-- Where it parts no paragraph, a line of another kind only comes in between. -/
theorem exists_tag_insert (hline : line.isParagraph = false) (hapart : ¬ Adjoin before after) :
    ∃ front back, tag (before ++ after) = front ++ back ∧
      tag (before ++ line :: after) = front ++ line :: back := by
  obtain ⟨front, hfront⟩ := exists_tagFrom_append false before
  cases hstate : before.foldl (fun _ line => line.isParagraph) false with
  | false =>
    refine ⟨front, tag after, ?_, ?_⟩
    · rw [tag, hfront, hstate, tag]
    · rw [tag, hfront, hstate, tagFrom, hline]
      rfl
  | true =>
    have hhead : ∀ next ∈ after.head?, Line.isParagraph next = false := by
      intro next hnext
      rw [Bool.eq_false_iff]
      exact fun hpar => hapart ⟨foldl_isParagraph_eq_true hstate, next, hnext, hpar⟩
    refine ⟨front ++ [closeTag], tag after, ?_, ?_⟩
    · rw [tag, hfront, hstate, tagFrom_true_of_apart hhead, List.append_assoc]
      rfl
    · rw [tag, hfront, hstate, tagFrom, hline, List.append_assoc]
      rfl

end Paragraph

namespace Line

theorem isParagraph_of_marker {m : Marker} (h : line.marker? = some m) : line.isParagraph = false := by
  rw [isParagraph, h]
  rfl

theorem fits_of_marker {m : Marker} (h : line.marker? = some m) : m.fits (Text.trim line) = true := by
  have hfind : Marker.all.find? (fun m => m.fits (Text.trim line)) = some m := h
  exact (List.find?_some hfind :)

theorem trim_of_blank (h : line.marker? = some .blank) : Text.trim line = [] :=
  List.isEmpty_iff.mp (fits_of_marker h)

theorem exists_of_comment (h : line.marker? = some .comment) :
    ∃ x r, (∀ c ∈ x, Text.isSpace c = true) ∧ line = x ++ ';' :: ';' :: r := by
  obtain ⟨rest, hrest⟩ := Option.isSome_iff_exists.mp (fits_of_marker h)
  have htrim : Text.trim line = ';' :: ';' :: rest := Text.after?_eq_some_iff.mp hrest
  obtain ⟨x, c, y, rfl, hx, hc⟩ := Text.exists_of_trim_ne_nil (t := line) (by simp [htrim])
  rw [Text.trim_append_cons hx hc] at htrim
  obtain ⟨rfl, hy⟩ := List.cons.inj htrim
  have hprefix : Text.trimEnd y <+: y := by
    have hsuffix := List.reverse_prefix.mpr (List.dropWhile_suffix Text.isSpace (l := y.reverse))
    rwa [List.reverse_reverse] at hsuffix
  obtain ⟨more, hmore⟩ := hprefix
  rw [hy] at hmore
  exact ⟨x, rest ++ more, hx, by rw [← hmore]; rfl⟩

/-- Only an at sign at the very start declares anything. -/
theorem parse?_of_marker (h : line.marker? = some .blank ∨ line.marker? = some .comment) :
    Declaration.parse? line = none := by
  cases line with
  | nil => rfl
  | cons c r =>
    apply Declaration.parse?_cons
    rintro rfl
    have htrim : Text.trim ('@' :: r) = '@' :: Text.trimEnd r :=
      Text.trim_append_cons (x := []) (by simp) (by decide) r
    rcases h with h | h
    · have hfits := fits_of_marker h
      rw [htrim] at hfits
      exact absurd hfits (by simp [Marker.fits])
    · have hfits := fits_of_marker h
      rw [htrim] at hfits
      exact absurd hfits (by simp [Marker.fits, Marker.lead, Text.startsWith, Text.after?])

/-- A comment that fills a line comes to nothing, whatever white space stands before it. -/
theorem convert_comment (h : line.marker? = some .comment) (hn : '\n' ∉ line) :
    Inline.convert line = [] := by
  obtain ⟨x, r, hx, rfl⟩ := exists_of_comment h
  have hshield : Escape.shieldEscapes (x ++ ';' :: ';' :: r) =
      x ++ ';' :: ';' :: Escape.shieldEscapes r :=
    Escape.shieldEscapes_append (fun c hc => Inline.plain_of_isSpace (hx c hc)) (';' :: ';' :: r)
  have hstart : Inline.startsComment (x ++ ';' :: ';' :: Escape.shieldEscapes r) = true := by
    refine Inline.startsComment_iff.mpr ⟨Escape.shieldEscapes r, ?_, ?_⟩
    · rw [Text.trimStart, List.dropWhile_append_of_pos hx]
      rfl
    · apply Escape.newline_not_mem_shieldEscapes
      intro hm
      exact hn (by simp [hm])
  have hdrop : Inline.Rule.comment.apply (Escape.shieldEscapes (x ++ ';' :: ';' :: r)) = [] := by
    rw [hshield]
    cases x with
    | nil => exact if_pos hstart
    | cons c x => exact if_pos hstart
  rw [Inline.convert, Inline.Rule.all, List.foldl_cons, hdrop]
  rfl

/-- White space comes out again, since no rule takes it away. -/
theorem convert_blank_ne_nil (h : line.marker? = some .blank) (hne : line ≠ []) :
    Inline.convert line ≠ [] := by
  apply Inline.convert_ne_nil hne
  rw [Bool.eq_false_iff]
  intro hs
  obtain ⟨x, r, hx, rfl⟩ := Inline.exists_of_startsComment_shieldEscapes hs
  have htrim := trim_of_blank h
  rw [Text.trim_append_cons hx (by decide)] at htrim
  exact absurd htrim (List.cons_ne_nil _ _)

end Line

namespace Converter

theorem contentLine?_eq_none_iff (h : line.marker? = some .blank ∨ line.marker? = some .comment)
    (hn : '\n' ∉ line) : contentLine? line = none ↔ line = [] ∨ line.marker? = some .comment := by
  have hparse := Line.parse?_of_marker h
  have hcontent : contentLine? line = none ↔ Inline.convert line = [] := by
    simp [contentLine?, hparse]
  rw [hcontent]
  constructor
  · intro hnil
    rcases h with h | h
    · by_cases hne : line = []
      · exact Or.inl hne
      · exact absurd hnil (Line.convert_blank_ne_nil h hne)
    · exact Or.inr h
  · rintro (rfl | hcomment)
    · rfl
    · exact Line.convert_comment hcomment hn

/-- A blank line or a comment, put where it does not part a paragraph, declares nothing, and it leaves the
content alone if and only if it is a comment or has no character at all. -/
theorem render_insert_iff (c : Converter) {before after : List Line} {line : Line}
    (hline : line.marker? = some .blank ∨ line.marker? = some .comment) (hn : '\n' ∉ line)
    (hapart : ¬ Adjoin before after) :
    (c.render (before ++ line :: after)).values = (c.render (before ++ after)).values ∧
      ((c.render (before ++ line :: after)).content = (c.render (before ++ after)).content ↔
        line = [] ∨ line.marker? = some .comment) := by
  have hpar : line.isParagraph = false := hline.elim Line.isParagraph_of_marker Line.isParagraph_of_marker
  have hparse := Line.parse?_of_marker hline
  obtain ⟨front, back, hwithout, hwith⟩ := Paragraph.exists_tag_insert hpar hapart
  have hdeclares : c.declaration? line = none := by rw [declaration?, hparse]; rfl
  rw [render, render, hwithout, hwith]
  refine ⟨?_, ?_⟩
  · simp [hdeclares]
  · rw [← contentLine?_eq_none_iff hline hn]
    cases hcontent : contentLine? line with
    | none => simp [hcontent]
    | some html =>
      have hne : html ≠ [] := by
        rintro rfl
        simp [contentLine?, hparse] at hcontent
      have hjoin := Text.join_insert_ne hne c.separator (front.filterMap contentLine?)
        (back.filterMap contentLine?)
      simpa [hcontent] using hjoin

/-- A comment after other kinds of white space, between a paragraph and a heading. -/
theorem render_insert_iff_comment :
    Line.marker? "\t\u00a0;; x `y".toList = some .comment ∧ '\n' ∉ "\t\u00a0;; x `y".toList ∧
      ¬ Adjoin ["@x: 1".toList, "a".toList] ["# b".toList] ∧
      ((Converter.mk ⟨0, 0, 0⟩ ['\n']).render
          ["@x: 1".toList, "a".toList, "\t\u00a0;; x `y".toList, "# b".toList]).values =
        ((Converter.mk ⟨0, 0, 0⟩ ['\n']).render
          ["@x: 1".toList, "a".toList, "# b".toList]).values ∧
      ((Converter.mk ⟨0, 0, 0⟩ ['\n']).render
          ["@x: 1".toList, "a".toList, "\t\u00a0;; x `y".toList, "# b".toList]).content =
        ((Converter.mk ⟨0, 0, 0⟩ ['\n']).render
          ["@x: 1".toList, "a".toList, "# b".toList]).content := by
  have hmarker : Line.marker? "\t\u00a0;; x `y".toList = some .comment := by decide
  have hn : '\n' ∉ "\t\u00a0;; x `y".toList := by decide
  have hapart : ¬ Adjoin ["@x: 1".toList, "a".toList] ["# b".toList] := by decide
  obtain ⟨hvalues, hcontent⟩ :=
    render_insert_iff (Converter.mk ⟨0, 0, 0⟩ ['\n']) (Or.inr hmarker) hn hapart
  exact ⟨hmarker, hn, hapart, hvalues, hcontent.mpr (Or.inr hmarker)⟩

/-- White space after the last paragraph is a line of the content. -/
theorem exists_blank_in_content :
    ∃ line : Line, line.marker? = some .blank ∧ '\n' ∉ line ∧ ¬ Adjoin ["Text".toList] [] ∧
      ((Converter.mk ⟨0, 0, 0⟩ ['\n']).render ["Text".toList, line]).content ≠
        ((Converter.mk ⟨0, 0, 0⟩ ['\n']).render ["Text".toList]).content :=
  ⟨"  ".toList, by decide, by decide, by decide, by decide⟩

end Converter

end LineMarkup
