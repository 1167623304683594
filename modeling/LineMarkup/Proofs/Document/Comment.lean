import LineMarkup.Proofs.Document.Values
import LineMarkup.Proofs.Inline.Comment
import Mathlib.Data.List.Forall2

/-!
Comments in a document. Two documents that differ only in what their comments say are rendered alike.
-/

namespace LineMarkup

set_option autoImplicit false

open Escape (EndsEven)

/-- Lines that are the same but for what stands after two bare semicolons, where they declare nothing. -/
inductive SameButComment : Line → Line → Prop where
  | same (line : Line) : SameButComment line line
  | comment {a b b' : Text} : EndsEven a → '\n' ∉ b → '\n' ∉ b' →
      Declaration.parse? (a ++ ';' :: ';' :: b) = none →
      SameButComment (a ++ ';' :: ';' :: b) (a ++ ';' :: ';' :: b')

/-- What a document takes from a line: whether it is paragraph text, what it declares and its HTML. -/
structure Alike (line line' : Line) : Prop where
  isParagraph : line.isParagraph = line'.isParagraph
  declaration : Declaration.parse? line = Declaration.parse? line'
  html : Inline.convert line = Inline.convert line'

variable {a b b' : Text} {line line' : Line} {source source' : List Line}

theorem Alike.refl (line : Line) : Alike line line := ⟨rfl, rfl, rfl⟩

/-- A marker does not look past the first two characters after white space. -/
theorem Line.isParagraph_append_comment (a b b' : Text) :
    Line.isParagraph (a ++ ';' :: ';' :: b) = Line.isParagraph (a ++ ';' :: ';' :: b') := by
  have htrim : ∀ t, Text.trim (a ++ ';' :: ';' :: t) =
      (Text.trimStart a ++ [';', ';']) ++ Text.trimEnd t := by
    intro t
    rw [Text.trim, Text.trimStart_append_cons (by decide), Text.trimEnd_append_cons (by decide),
      Text.trimEnd_cons (by decide), List.append_assoc]
    rfl
  have hlead : ∀ m : Marker, m.lead.length ≤ (Text.trimStart a ++ [';', ';']).length := by
    intro m
    have hm : m.lead.length ≤ 2 := by cases m <;> decide
    rw [List.length_append, List.length_cons, List.length_singleton]
    omega
  have hfits : ∀ m : Marker, m.fits (Text.trim (a ++ ';' :: ';' :: b)) =
      m.fits (Text.trim (a ++ ';' :: ';' :: b')) := by
    intro m
    rw [htrim, htrim]
    cases m with
    | blank =>
      cases Text.trimStart a with
      | nil => rfl
      | cons c u => rfl
    | _ =>
      simp only [Marker.fits]
      rw [Text.startsWith_append (hlead _), Text.startsWith_append (hlead _)]
  rw [Line.isParagraph, Line.isParagraph, Line.marker?, Line.marker?, Marker.find?, Marker.find?]
  simp only [hfits]

/-- What makes a line a declaration stands before its comment, but for newlines. -/
theorem Declaration.parse?_append_comment (hb : '\n' ∉ b)
    (h : Declaration.parse? (a ++ ';' :: ';' :: b) = none) :
    Declaration.parse? (a ++ ';' :: ';' :: b') = none := by
  rw [Option.eq_none_iff_forall_ne_some] at h ⊢
  rintro ⟨name, value⟩ hd
  obtain ⟨rest, hline, hname, rfl, hn⟩ := Declaration.parse?_eq_some_iff.mp hd
  have hlead : ('@' :: name ++ [':']) ++ rest = a ++ ';' :: ';' :: b' := by
    rw [hline]
    simp
  have hsemi : ';' ∉ '@' :: name ++ [':'] := by
    have := hname.not_mem (c := ';') (by decide)
    simp [this]
  obtain ⟨z, rfl, rfl⟩ := Text.append_cons_of_not_mem hsemi hlead
  have hstart : ∀ t, Text.trimStart (z ++ ';' :: ';' :: t) = Text.trimStart z ++ ';' :: ';' :: t :=
    fun t => Text.trimStart_append_cons (by decide) z _
  rw [hstart] at hn
  refine h ⟨name, Text.trimStart z ++ ';' :: ';' :: b⟩ (Declaration.parse?_eq_some_iff.mpr ?_)
  refine ⟨z ++ ';' :: ';' :: b, by simp, hname, (hstart b).symm, ?_⟩
  intro hm
  simp only [List.mem_append, List.mem_cons] at hm hn
  rcases hm with hm | hm | hm | hm
  · exact hn (Or.inl hm)
  · exact absurd hm (by decide)
  · exact absurd hm (by decide)
  · exact hb hm

theorem SameButComment.alike (h : SameButComment line line') : Alike line line' := by
  cases h with
  | same => exact Alike.refl line
  | comment ha hb hb' hd =>
    refine ⟨Line.isParagraph_append_comment _ _ _, ?_, Inline.convert_append_comment ha hb hb'⟩
    rw [hd, Declaration.parse?_append_comment hb hd]

/-- Tagging does the same to lines that are alike. -/
theorem Paragraph.filterMap_tagFrom_congr {β : Type} {f : Line → Option β}
    (hf : ∀ line line', Alike line line' → f line = f line')
    (h : List.Forall₂ Alike source source') (inside : Bool) :
    (tagFrom inside source).filterMap f = (tagFrom inside source').filterMap f := by
  have hcons : ∀ line l l', l.filterMap f = l'.filterMap f →
      (line :: l).filterMap f = (line :: l').filterMap f := by
    intro line l l' hl
    rw [List.filterMap_cons, List.filterMap_cons, hl]
  induction h generalizing inside with
  | nil => rfl
  | @cons line line' rest rest' hline _ ih =>
    have hstep : ∀ b, (line :: tagFrom b rest).filterMap f =
        (line' :: tagFrom b rest').filterMap f := by
      intro b
      rw [List.filterMap_cons, List.filterMap_cons, hf line line' hline, ih b]
    rw [tagFrom, tagFrom, hline.isParagraph]
    split
    next =>
      cases inside with
      | true => exact hstep true
      | false => exact hcons openTag _ _ (hstep true)
    next =>
      cases inside with
      | true => exact hcons closeTag _ _ (hstep false)
      | false => exact hstep false

namespace Converter

/-- What comments say has no part in a rendered document. -/
theorem render_congr_comment (c : Converter) (h : List.Forall₂ SameButComment source source') :
    c.render source = c.render source' := by
  have halike : List.Forall₂ Alike source source' := h.imp fun _ _ hline => hline.alike
  have hcontent : ∀ line line', Alike line line' → contentLine? line = contentLine? line' := by
    intro line line' hline
    rw [contentLine?, contentLine?, hline.declaration, hline.html]
  have hvalues : ∀ line line', Alike line line' → c.declaration? line = c.declaration? line' := by
    intro line line' hline
    rw [declaration?, declaration?, hline.declaration]
  rw [render, render, Paragraph.tag, Paragraph.tag,
    Paragraph.filterMap_tagFrom_congr hcontent halike false,
    Paragraph.filterMap_tagFrom_congr hvalues halike false]

/-- The comment of a heading and one that fills a line, between two lines of a paragraph. -/
theorem render_congr_comment_heading :
    List.Forall₂ SameButComment
        ["a".toList, "# b\\\\;;`*x".toList, ";; @x: 1".toList, "c".toList]
        ["a".toList, "# b\\\\;;".toList, ";; [y](z) ;; \\".toList, "c".toList] ∧
      (Converter.mk ⟨0, 0, 0⟩ ['\n']).render
          ["a".toList, "# b\\\\;;`*x".toList, ";; @x: 1".toList, "c".toList] =
        (Converter.mk ⟨0, 0, 0⟩ ['\n']).render
          ["a".toList, "# b\\\\;;".toList, ";; [y](z) ;; \\".toList, "c".toList] :=
  have h : List.Forall₂ SameButComment
      ["a".toList, "# b\\\\;;`*x".toList, ";; @x: 1".toList, "c".toList]
      ["a".toList, "# b\\\\;;".toList, ";; [y](z) ;; \\".toList, "c".toList] := by
    refine .cons (.same _) (.cons ?_ (.cons ?_ (.cons (.same _) .nil)))
    · exact @SameButComment.comment "# b\\\\".toList "`*x".toList []
        ⟨"# b".toList, 1, by decide, by decide⟩ (by decide) (by decide) (by decide)
    · exact @SameButComment.comment [] " @x: 1".toList " [y](z) ;; \\".toList
        ⟨[], 0, by decide, by decide⟩ (by decide) (by decide) (by decide)
  ⟨h, render_congr_comment _ h⟩

end Converter

end LineMarkup
