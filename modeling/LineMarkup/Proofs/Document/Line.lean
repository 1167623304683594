import LineMarkup.Document
import LineMarkup.Proofs.Inline.Presence

/-!
Lines on their way into a document: which of them are paragraph text, what tagging adds around
these, and that neither tags nor paragraph text declare anything or come to nothing.
-/

namespace LineMarkup

set_option autoImplicit false

/-- The first character after white space decides that a line is paragraph text, unless it can start
one of the leads. -/
theorem Line.isParagraph_append_cons {x : Text} {c : Char} (hx : ∀ d ∈ x, Text.isSpace d = true)
    (hc : Text.isSpace c = false) (hlead : c ∉ ['#', '@', '>', ';']) (y : Text) :
    Line.isParagraph (x ++ c :: y) = true := by
  simp only [List.mem_cons, List.not_mem_nil, or_false, not_or] at hlead
  obtain ⟨hsign, hat, hgreater, hsemi⟩ := hlead
  rw [Line.isParagraph, Line.marker?, Marker.find?, Option.isNone_iff_eq_none, List.find?_eq_none]
  intro m _
  rw [Text.trim_append_cons hx hc]
  cases m with
  | blank => simp [Marker.fits]
  | heading => simp [Marker.fits, Marker.lead, Text.startsWith, Text.after?, Ne.symm hsign]
  | declaration => simp [Marker.fits, Marker.lead, Text.startsWith, Text.after?, Ne.symm hat]
  | blockquote => simp [Marker.fits, Marker.lead, Text.startsWith, Text.after?, Ne.symm hgreater]
  | comment => simp [Marker.fits, Marker.lead, Text.startsWith, Text.after?, Ne.symm hsemi]

/-- A line that starts with two semicolons, but for white space, is a comment. -/
theorem Line.isParagraph_comment {x : Text} (hx : ∀ d ∈ x, Text.isSpace d = true) (r : Text) :
    Line.isParagraph (x ++ ';' :: ';' :: r) = false := by
  have htrim : Text.trim (x ++ ';' :: ';' :: r) = ';' :: ';' :: Text.trimEnd r := by
    rw [Text.trim_append_cons hx (by decide), Text.trimEnd_cons (by decide)]
  have hfits : Marker.comment.fits (Text.trim (x ++ ';' :: ';' :: r)) = true := by
    rw [htrim]
    simp [Marker.fits, Marker.lead, Text.startsWith, Text.after?]
  rw [Bool.eq_false_iff]
  intro h
  rw [Line.isParagraph, Line.marker?, Marker.find?, Option.isNone_iff_eq_none,
    List.find?_eq_none] at h
  exact h .comment (by decide) hfits

/-- Paragraph text never comes to nothing. -/
theorem Line.convert_ne_nil_of_isParagraph {line : Line} (h : line.isParagraph = true) :
    Inline.convert line ≠ [] := by
  apply Inline.convert_ne_nil
  · rintro rfl
    exact absurd h (by decide)
  · rw [Bool.eq_false_iff]
    intro hs
    obtain ⟨x, r, hx, rfl⟩ := Inline.exists_of_startsComment_shieldEscapes hs
    rw [Line.isParagraph_comment hx r] at h
    exact absurd h (by decide)

theorem Declaration.parse?_cons {c : Char} (hc : c ≠ '@') (r : Text) :
    Declaration.parse? (c :: r) = none := by
  unfold Declaration.parse?
  split
  next h => exact absurd (List.cons.inj h).1 hc
  next => rfl

/-- Paragraph text declares nothing. -/
theorem Declaration.parse?_of_isParagraph {line : Line} (h : line.isParagraph = true) :
    Declaration.parse? line = none := by
  cases line with
  | nil => rfl
  | cons c r =>
    apply Declaration.parse?_cons
    rintro rfl
    have htrim : Text.trim ('@' :: r) = '@' :: Text.trimEnd r :=
      Text.trim_append_cons (x := []) (by simp) (by decide) r
    have hfits : Marker.declaration.fits (Text.trim ('@' :: r)) = true := by
      simp [htrim, Marker.fits, Marker.lead, Text.startsWith, Text.after?]
    rw [Line.isParagraph, Line.marker?, Marker.find?, Option.isNone_iff_eq_none,
      List.find?_eq_none] at h
    exact h .declaration (by decide) hfits

namespace Paragraph

theorem parse?_openTag : Declaration.parse? openTag = none := by decide

theorem parse?_closeTag : Declaration.parse? closeTag = none := by decide

theorem filterMap_tagFrom {β : Type} {f : Line → Option β} (ho : f openTag = none)
    (hc : f closeTag = none) (inside : Bool) (lines : List Line) :
    (tagFrom inside lines).filterMap f = lines.filterMap f := by
  induction lines generalizing inside with
  | nil => cases inside <;> simp [tagFrom, hc]
  | cons line rest ih =>
    have hline : ∀ b, (line :: tagFrom b rest).filterMap f = (line :: rest).filterMap f := by
      intro b
      rw [List.filterMap_cons, List.filterMap_cons, ih]
    rw [tagFrom]
    split
    · cases inside with
      | true => exact hline true
      | false => simpa [ho] using hline true
    · cases inside with
      | true => simpa [hc] using hline false
      | false => exact hline false

theorem filterMap_tag {β : Type} {f : Line → Option β} (ho : f openTag = none)
    (hc : f closeTag = none) (lines : List Line) :
    (tag lines).filterMap f = lines.filterMap f :=
  filterMap_tagFrom ho hc false lines

/-- A run of paragraph text is tagged as a whole where no more of it follows. -/
theorem tag_append_of_text {lines rest : List Line} (hne : lines ≠ [])
    (h : ∀ line ∈ lines, line.isParagraph = true) (hr : ∀ line ∈ rest.head?, line.isParagraph = false) :
    tag (lines ++ rest) = openTag :: lines ++ closeTag :: tag rest := by
  obtain ⟨line, more, rfl⟩ := List.exists_cons_of_ne_nil hne
  obtain ⟨hline, hmore⟩ := List.forall_mem_cons.mp h
  have hopen : tag (line :: more ++ rest) = openTag :: line :: tagFrom true (more ++ rest) := by
    simp [tag, tagFrom, hline]
  rw [hopen, tagFrom_true, Text.takeWhile_append_of_head hmore hr,
    Text.dropWhile_append_of_head hmore hr]
  rfl

theorem tag_append_of_other {lines : List Line} (h : ∀ line ∈ lines, line.isParagraph = false)
    (rest : List Line) : tag (lines ++ rest) = lines ++ tag rest := by
  induction lines with
  | nil => rfl
  | cons line more ih =>
    obtain ⟨hline, hmore⟩ := List.forall_mem_cons.mp h
    have hfirst : tag (line :: (more ++ rest)) = line :: tag (more ++ rest) := by
      simp [tag, tagFrom, hline]
    rw [List.cons_append, hfirst, ih hmore, List.cons_append]

theorem tag_of_forall {lines : List Line} (hne : lines ≠ [])
    (h : ∀ line ∈ lines, line.isParagraph = true) :
    tag lines = openTag :: lines ++ [closeTag] := by
  have htag : tag (lines ++ []) = openTag :: lines ++ closeTag :: tag [] :=
    tag_append_of_text hne h (by simp)
  rwa [List.append_nil] at htag

end Paragraph

namespace Converter

theorem declaration?_openTag (c : Converter) : c.declaration? Paragraph.openTag = none := by
  rw [declaration?, Paragraph.parse?_openTag]
  rfl

theorem declaration?_closeTag (c : Converter) : c.declaration? Paragraph.closeTag = none := by
  rw [declaration?, Paragraph.parse?_closeTag]
  rfl

theorem contentLine?_openTag : contentLine? Paragraph.openTag = some Paragraph.openTag := by
  decide

theorem contentLine?_closeTag : contentLine? Paragraph.closeTag = some Paragraph.closeTag := by
  decide

theorem contentLine?_of_isParagraph {line : Line} (h : line.isParagraph = true) :
    contentLine? line = some (Inline.convert line) := by
  simp [contentLine?, Declaration.parse?_of_isParagraph h, Line.convert_ne_nil_of_isParagraph h]

end Converter

end LineMarkup
