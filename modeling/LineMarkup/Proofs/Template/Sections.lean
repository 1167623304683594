import LineMarkup.Proofs.Template.Placeholder

/-!
Templates in sections: a text in front, and then placeholders, each with the text after it. A template
falls into sections in exactly one way, and filling it writes the values between the same texts.
-/

namespace LineMarkup.Template

set_option autoImplicit false

open Text (Piece)

/-- A text, and names with the text that follows each of them. -/
structure Sections where
  first : Text
  rest : List (Text × Text)

namespace Sections

def write (f : Text → Text) (s : Sections) : Text :=
  s.first ++ s.rest.flatMap fun p => f p.1 ++ p.2

def pieces (s : Sections) : List (Piece Text) :=
  s.first.map .plain ++ s.rest.flatMap fun p => .found p.1 :: p.2.map .plain

def ofPieces : List (Piece Text) → Sections
  | [] => ⟨[], []⟩
  | .plain c :: ps => ⟨c :: (ofPieces ps).first, (ofPieces ps).rest⟩
  | .found name :: ps => ⟨[], (name, (ofPieces ps).first) :: (ofPieces ps).rest⟩

theorem pieces_ofPieces (ps : List (Piece Text)) : (ofPieces ps).pieces = ps := by
  induction ps with
  | nil => rfl
  | cons p ps ih =>
    cases p with
    | plain c => exact congrArg (.plain c :: ·) ih
    | found name => exact congrArg (.found name :: ·) ih

theorem ofPieces_append (text : Text) (ps : List (Piece Text)) :
    ofPieces (text.map .plain ++ ps) = ⟨text ++ (ofPieces ps).first, (ofPieces ps).rest⟩ := by
  induction text with
  | nil => rfl
  | cons c text ih => rw [List.map_cons, List.cons_append, ofPieces, ih, List.cons_append]

theorem ofPieces_pieces (s : Sections) : ofPieces s.pieces = s := by
  have hrest : ∀ rest : List (Text × Text), ofPieces (rest.flatMap fun p =>
      .found p.1 :: p.2.map .plain) = ⟨[], rest⟩ := by
    intro rest
    induction rest with
    | nil => rfl
    | cons p rest ih =>
      rw [List.flatMap_cons, List.cons_append, ofPieces, ofPieces_append, ih, List.append_nil]
  rw [pieces, ofPieces_append, hrest, List.append_nil]

/-- Sections of pieces that are cut at a find, at the same place. -/
theorem ofPieces_append_found (qs rs : List (Piece Text)) (name : Text) :
    ofPieces (qs ++ .found name :: rs) = ⟨(ofPieces qs).first,
      (ofPieces qs).rest ++ (name, (ofPieces rs).first) :: (ofPieces rs).rest⟩ := by
  induction qs with
  | nil => rfl
  | cons q qs ih =>
    cases q with
    | plain c => rw [List.cons_append, ofPieces, ih, ofPieces]
    | found other => rw [List.cons_append, ofPieces, ih, ofPieces, List.cons_append]

theorem flatMap_pieces (f : Text → Text) (s : Sections) :
    s.pieces.flatMap (Piece.write f) = s.write f := by
  have hsection : ∀ p : Text × Text,
      (Piece.found p.1 :: p.2.map .plain).flatMap (Piece.write f) =
        f p.1 ++ p.2 := by
    intro p
    rw [List.flatMap_cons, Text.flatMap_write_plain]
    rfl
  rw [pieces, List.flatMap_append, Text.flatMap_write_plain, List.flatMap_assoc, write]
  simp only [hsection]

theorem mem_pieces_found {s : Sections} {name : Text} :
    .found name ∈ s.pieces ↔ ∃ text, (name, text) ∈ s.rest := by
  simp [pieces]

end Sections

/-- A template in sections: written with placeholders they are the template, and whatever reads as a
placeholder anywhere in it, inside a text or across several, is one of theirs. -/
structure SplitsInto (template : Text) (s : Sections) : Prop where
  written : s.write placeholder = template
  isName : ∀ p ∈ s.rest, IsName p.1
  whole : ∀ before name after, IsName name → template = before ++ placeholder name ++ after →
    ∃ xs text ys, s.rest = xs ++ (name, text) :: ys ∧
      Sections.write placeholder ⟨s.first, xs⟩ = before ∧ Sections.write placeholder ⟨text, ys⟩ = after

variable {template : Text} {s s' : Sections}

theorem splitsInto_iff_cut : SplitsInto template s ↔ Cut template s.pieces := by
  constructor
  · intro h
    refine ⟨by rw [s.flatMap_pieces, h.written], ?_, ?_⟩
    · intro name hname
      obtain ⟨text, hmem⟩ := Sections.mem_pieces_found.mp hname
      exact h.isName _ hmem
    · intro before name after hname ht
      obtain ⟨xs, text, ys, hrest, hb, ha⟩ := h.whole before name after hname ht
      refine ⟨Sections.pieces ⟨s.first, xs⟩, Sections.pieces ⟨text, ys⟩, ?_, ?_, ?_⟩
      · simp [Sections.pieces, hrest]
      · rw [Sections.flatMap_pieces, hb]
      · rw [Sections.flatMap_pieces, ha]
  · intro h
    refine ⟨by rw [← s.flatMap_pieces, h.written], ?_, ?_⟩
    · intro p hmem
      exact h.isName _ (Sections.mem_pieces_found.mpr ⟨p.2, hmem⟩)
    · intro before name after hname ht
      obtain ⟨qs, rs, hpieces, hb, ha⟩ := h.whole before name after hname ht
      have hs := Sections.ofPieces_append_found qs rs name
      rw [← hpieces, s.ofPieces_pieces] at hs
      rw [hs]
      refine ⟨_, _, _, rfl, ?_, ?_⟩
      · rw [← hb, ← Sections.flatMap_pieces]
        exact congrArg _ (Sections.pieces_ofPieces qs)
      · rw [← ha, ← Sections.flatMap_pieces]
        exact congrArg _ (Sections.pieces_ofPieces rs)

theorem SplitsInto.unique (h : SplitsInto template s) (h' : SplitsInto template s') : s = s' := by
  have hpieces := (splitsInto_iff_cut.mp h).unique (splitsInto_iff_cut.mp h')
  rw [← s.ofPieces_pieces, hpieces, s'.ofPieces_pieces]

theorem exists_splitsInto (template : Text) : ∃ s, SplitsInto template s ∧
    s.pieces = Text.pieces placeholder? template := by
  have hpieces := Sections.pieces_ofPieces (Text.pieces placeholder? template)
  refine ⟨Sections.ofPieces (Text.pieces placeholder? template), ?_, hpieces⟩
  rw [splitsInto_iff_cut, hpieces]
  exact cut_pieces template

/-- A placeholder that starts later than another one in a template starts after its end. -/
theorem exists_between {before after before' after' name name' : Text} (hname : IsName name)
    (h : template = before ++ placeholder name ++ after)
    (h' : template = before' ++ placeholder name' ++ after') (hlt : before.length < before'.length) :
    ∃ between, before' = before ++ placeholder name ++ between := by
  have he : before ++ (placeholder name ++ after) = before' ++ (placeholder name' ++ after') := by
    rw [← List.append_assoc, ← List.append_assoc, ← h, h']
  rcases List.append_eq_append_iff.mp he with ⟨x, rfl, hx⟩ | ⟨x, rfl, _⟩
  · have hne : x ≠ [] := by
      rintro rfl
      simp at hlt
    rw [← List.append_assoc] at hx
    obtain ⟨between, rfl, _⟩ := append_of_placeholder_append_eq hname hne hx
    exact ⟨between, by rw [List.append_assoc]⟩
  · rw [List.length_append] at hlt
    omega

/-- No two placeholders of a template share a character, so it falls into sections in one way; filling it
keeps the texts of these and writes, for every placeholder, the value of its name or else itself. -/
theorem fill_sections (template : Text) (values : Variables) :
    (∀ before name after before' name' after', IsName name → IsName name' →
      template = before ++ placeholder name ++ after →
      template = before' ++ placeholder name' ++ after' → before.length < before'.length →
      (before ++ placeholder name).length ≤ before'.length) ∧
    ∃ s, SplitsInto template s ∧ (∀ s', SplitsInto template s' → s' = s) ∧
      fill template values = s.write fun name => (values.get? name).getD (placeholder name) := by
  constructor
  · intro before name after before' name' after' hname _ h h' hlt
    obtain ⟨between, hbetween⟩ := exists_between hname h h' hlt
    rw [hbetween]
    exact (List.prefix_append _ between).length_le
  · obtain ⟨s, hs, hpieces⟩ := exists_splitsInto template
    refine ⟨s, hs, fun s' hs' => hs'.unique hs, ?_⟩
    rw [fill, Text.replaceAll, ← hpieces, s.flatMap_pieces]

/-- A value that reads as a placeholder, between braces that belong to none. -/
theorem fill_sections_extraBraces :
    SplitsInto "\x7b\x7b\x7ba\x7d\x7d\x7b\x7bb\x7d\x7d\x7d".toList
        ⟨['\x7b'], [(['a'], []), (['b'], ['\x7d'])]⟩ ∧
      fill "\x7b\x7b\x7ba\x7d\x7d\x7b\x7bb\x7d\x7d\x7d".toList
          (.ofList [(['a'], "\x7b\x7bb\x7d\x7d".toList)]) =
        "\x7b\x7b\x7bb\x7d\x7d\x7b\x7bb\x7d\x7d\x7d".toList := by
  obtain ⟨s, hs, hunique, hfill⟩ :=
    (fill_sections "\x7b\x7b\x7ba\x7d\x7d\x7b\x7bb\x7d\x7d\x7d".toList
      (.ofList [(['a'], "\x7b\x7bb\x7d\x7d".toList)])).2
  have hsplit : SplitsInto "\x7b\x7b\x7ba\x7d\x7d\x7b\x7bb\x7d\x7d\x7d".toList
      ⟨['\x7b'], [(['a'], []), (['b'], ['\x7d'])]⟩ := by
    have hpieces : Text.pieces placeholder? "\x7b\x7b\x7ba\x7d\x7d\x7b\x7bb\x7d\x7d\x7d".toList =
        Sections.pieces ⟨['\x7b'], [(['a'], []), (['b'], ['\x7d'])]⟩ := by decide +kernel
    rw [splitsInto_iff_cut, ← hpieces]
    exact cut_pieces _
  refine ⟨hsplit, ?_⟩
  rw [hfill, ← hunique _ hsplit]
  decide +kernel

end LineMarkup.Template
