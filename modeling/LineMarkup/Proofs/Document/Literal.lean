import LineMarkup.Proofs.Document.Line
import LineMarkup.Proofs.Inline.Literal

/-!
Documents of literal text. Escaped lines are paragraph text whatever they are made from, and they are
rendered as one paragraph of the texts themselves.
-/

namespace LineMarkup

set_option autoImplicit false

open Escape (escape tokens)

theorem isParagraph_escape {t : Text} (h : Text.trim t ≠ []) : Line.isParagraph (escape t) = true := by
  obtain ⟨x, c, y, rfl, hx, hc⟩ := Text.exists_of_trim_ne_nil h
  have hplain : ∀ d ∈ x, d ≠ '\\' ∧ tokens.contains d = false := by
    intro d hd
    have hd := Inline.plain_of_isSpace (hx d hd)
    exact ⟨hd.1, hd.2.2⟩
  obtain ⟨r, hr⟩ := Escape.escape_cons c y
  rw [Escape.escape_append hplain, hr]
  by_cases ht : tokens.contains c = true
  · rw [if_pos ht]
    exact Line.isParagraph_append_cons hx (by decide) (by decide) r
  · rw [if_neg ht]
    refine Line.isParagraph_append_cons hx hc ?_ r
    intro hm
    have hsub : ∀ e ∈ ['#', '@', '>', ';'], tokens.contains e = true := by decide
    exact ht (hsub c hm)

theorem contentLine?_escape {t : Text} (hne : Text.trim t ≠ []) (hl : ¬ Inline.HoldsLink t) :
    Converter.contentLine? (escape t) = some t := by
  have hd := Declaration.parse?_of_isParagraph (isParagraph_escape hne)
  have ht : t ≠ [] := by
    rintro rfl
    exact hne rfl
  simp [Converter.contentLine?, hd, Inline.convert_escape hl, ht]

/-- Escaped texts that are not blank and hold no link are rendered as they are, as one paragraph. -/
theorem render_escape (c : Converter) {texts : List Text} (hne : texts ≠ [])
    (h : ∀ t ∈ texts, Text.trim t ≠ [] ∧ ¬ Inline.HoldsLink t) :
    c.render (texts.map escape) =
      { content := Text.join c.separator (Paragraph.openTag :: texts ++ [Paragraph.closeTag])
        values := Variables.empty } := by
  have hpar : ∀ line ∈ texts.map escape, Line.isParagraph line = true := by
    intro line hline
    obtain ⟨t, ht, rfl⟩ := List.mem_map.mp hline
    exact isParagraph_escape (h t ht).1
  have hmap : texts.map escape ≠ [] := by simpa using hne
  have hcontent : (texts.map escape).filterMap Converter.contentLine? = texts := by
    clear hne hpar hmap
    induction texts with
    | nil => rfl
    | cons t ts ih =>
      obtain ⟨⟨ht, hl⟩, hts⟩ := List.forall_mem_cons.mp h
      rw [List.map_cons, List.filterMap_cons, contentLine?_escape ht hl, ih hts]
  have hvalues : (Paragraph.tag (texts.map escape)).filterMap c.declaration? = [] := by
    rw [Paragraph.filterMap_tag c.declaration?_openTag c.declaration?_closeTag,
      List.filterMap_eq_nil_iff]
    intro line hline
    rw [Converter.declaration?, Declaration.parse?_of_isParagraph (hpar line hline)]
    rfl
  rw [Converter.render, hvalues, Paragraph.tag_of_forall hmap hpar, List.cons_append,
    List.filterMap_cons, Converter.contentLine?_openTag, List.filterMap_append, hcontent,
    List.filterMap_cons, Converter.contentLine?_closeTag]
  rfl

theorem render_escape_tokens :
    (∀ t ∈ [" @x: \\#*a* ;;`".toList, "[y](\\>\uE008\uE004z".toList],
      Text.trim t ≠ [] ∧ ¬ Inline.HoldsLink t) ∧
      (Converter.mk ⟨0, 0, 0⟩ ['\n']).render
          ([" @x: \\#*a* ;;`".toList, "[y](\\>\uE008\uE004z".toList].map escape) =
        { content := Text.join ['\n'] (Paragraph.openTag ::
            [" @x: \\#*a* ;;`".toList, "[y](\\>\uE008\uE004z".toList] ++ [Paragraph.closeTag])
          values := Variables.empty } :=
  have h : ∀ t ∈ [" @x: \\#*a* ;;`".toList, "[y](\\>\uE008\uE004z".toList],
      Text.trim t ≠ [] ∧ ¬ Inline.HoldsLink t := by
    have hall : ∀ t ∈ [" @x: \\#*a* ;;`".toList, "[y](\\>\uE008\uE004z".toList],
        Text.trim t ≠ [] ∧ ')' ∉ t := by decide
    intro t ht
    exact ⟨(hall t ht).1, fun hl => (hall t ht).2 hl.mem⟩
  ⟨h, render_escape _ (by decide) h⟩

end LineMarkup
