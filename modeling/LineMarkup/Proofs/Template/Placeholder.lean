import LineMarkup.Template
import LineMarkup.Proofs.Text.Substitution
import LineMarkup.Proofs.Text.Tokens

/-!
Placeholders of templates. A template can be cut at its placeholders in exactly one way, and that is
how it is cut for filling: two placeholders never share a character.
-/

namespace LineMarkup.Template

set_option autoImplicit false

open Text (Piece pieces)

variable {t template name other before after : Text}

/-- What can stand between the braces. -/
def IsName (name : Text) : Prop := name ≠ [] ∧ ∀ c ∈ name, Text.isWord c = true

theorem IsName.not_mem (h : IsName name) {c : Char} (hc : Text.isWord c = false) : c ∉ name := by
  intro hm
  exact Bool.noConfusion (hc.symm.trans (h.2 c hm))

theorem placeholder_eq (name : Text) :
    placeholder name = '\x7b' :: '\x7b' :: (name ++ ['\x7d', '\x7d']) := rfl

theorem spanWord_append_cons {w : Text} (hw : ∀ c ∈ w, Text.isWord c = true) {d : Char}
    (hd : Text.isWord d = false) (r : Text) : Text.spanWord (w ++ d :: r) = (w, d :: r) := by
  rw [Text.spanWord, List.takeWhile_append_of_pos hw, List.dropWhile_append_of_pos hw,
    List.takeWhile_cons_of_neg (by simp [hd]), List.dropWhile_cons_of_neg (by simp [hd]),
    List.append_nil]

theorem placeholder?_eq_some_iff {n : Nat} :
    placeholder? t = some (name, n) ↔
      n = name.length + 3 ∧ IsName name ∧ ∃ rest, t = placeholder name ++ rest := by
  constructor
  · intro h
    unfold placeholder? at h
    split at h
    next r hr =>
      obtain rfl := Text.after?_eq_some_iff.mp hr
      dsimp only [Text.spanWord] at h
      split at h
      next hc =>
        simp only [Bool.and_eq_true, Bool.not_eq_true', List.isEmpty_eq_false_iff,
          Text.startsWith, Option.isSome_iff_exists, Text.after?_eq_some_iff] at hc
        obtain ⟨hne, rest, hrest⟩ := hc
        obtain ⟨rfl, rfl⟩ := Prod.mk.inj (Option.some.inj h)
        refine ⟨rfl, ⟨hne, List.all_eq_true.mp List.all_takeWhile⟩, rest, ?_⟩
        rw [placeholder, List.append_assoc, List.append_assoc, ← hrest,
          List.takeWhile_append_dropWhile]
      next => simp at h
    next => simp at h
  · rintro ⟨rfl, hname, rest, rfl⟩
    have ho : Text.after? (placeholder name ++ rest) opening = some (name ++ '\x7d' :: '\x7d' :: rest) := by
      rw [Text.after?_eq_some_iff, placeholder]
      simp [closing]
    have hs := spanWord_append_cons hname.2 (d := '\x7d') (by decide) ('\x7d' :: rest)
    have hc : Text.startsWith ('\x7d' :: '\x7d' :: rest) closing = true := by
      simp [Text.startsWith, Text.after?, closing]
    simp only [placeholder?, ho, hs, hc]
    rw [if_pos (by simp [hname.1])]

theorem recognizes_placeholder : Text.Recognizes placeholder? placeholder IsName where
  ne_nil name := List.cons_ne_nil _ _
  find name rest h := by
    refine placeholder?_eq_some_iff.mpr ⟨?_, h, rest, rfl⟩
    simp [placeholder_eq]
  begins t name n h := (placeholder?_eq_some_iff.mp h).2

/-- A placeholder that starts later than another one starts after its end. -/
theorem append_of_placeholder_append_eq (h : IsName name) {rest : Text} (hb : before ≠ [])
    (he : placeholder name ++ rest = before ++ placeholder other ++ after) :
    ∃ b, before = placeholder name ++ b ∧ rest = b ++ placeholder other ++ after := by
  rw [List.append_assoc] at he
  rcases List.append_eq_append_iff.mp he with ⟨b, hb, hr⟩ | ⟨w, hw, hr⟩
  · exact ⟨b, hb, by rw [hr, List.append_assoc]⟩
  · have hbrace : '\x7b' ∉ name ++ ['\x7d', '\x7d'] := by
      rw [List.mem_append, not_or]
      exact ⟨h.not_mem (by decide), by decide⟩
    rw [placeholder_eq] at hw hr
    cases w with
    | nil =>
      refine ⟨[], ?_, ?_⟩
      · rw [placeholder_eq, hw, List.append_nil, List.append_nil]
      · rw [List.nil_append] at hr
        rw [← hr, placeholder_eq]
        rfl
    | cons d w =>
      obtain ⟨rfl, htail⟩ := List.cons.inj hr
      cases before with
      | nil => exact absurd rfl hb
      | cons x before =>
        have hw' := (List.cons.inj hw).2
        cases before with
        | nil =>
          rw [← (List.cons.inj hw').2] at htail
          cases name with
          | nil => exact absurd rfl h.1
          | cons a name =>
            have ha := (List.cons.inj htail).1
            exact absurd (h.2 a List.mem_cons_self) (by rw [← ha]; decide)
        | cons y before =>
          have hm := (List.cons.inj hw').2
          exact absurd (by rw [hm]; simp) hbrace

/-- A template cut at its placeholders: the pieces are the template, and whatever reads as a placeholder
anywhere in it is one of them. -/
structure Cut (template : Text) (ps : List (Piece Text)) : Prop where
  written : ps.flatMap (Piece.write placeholder) = template
  isName : ∀ name, .found name ∈ ps → IsName name
  whole : ∀ before name after, IsName name → template = before ++ placeholder name ++ after →
    ∃ qs rs, ps = qs ++ .found name :: rs ∧ qs.flatMap (Piece.write placeholder) = before ∧
      rs.flatMap (Piece.write placeholder) = after

theorem pieces_append_placeholder (hname : IsName name) (t before after : Text)
    (h : t = before ++ placeholder name ++ after) :
    ∃ qs rs, pieces placeholder? t = qs ++ .found name :: rs ∧
      qs.flatMap (Piece.write placeholder) = before ∧
      rs.flatMap (Piece.write placeholder) = after := by
  induction t using Text.scan_induction placeholder? generalizing before with
  | nil => simp [placeholder_eq] at h
  | plain c r hs ih =>
    cases before with
    | nil =>
      rw [h, List.nil_append, recognizes_placeholder.find name after hname] at hs
      exact absurd hs (by simp)
    | cons b before =>
      simp only [List.cons_append, List.cons.injEq] at h
      obtain ⟨rfl, h⟩ := h
      obtain ⟨qs, rs, hp, hq, hr⟩ := ih before h
      refine ⟨.plain c :: qs, rs, ?_, ?_, hr⟩
      · rw [Text.pieces_cons, hs, hp]
        rfl
      · rw [List.flatMap_cons, hq]
        rfl
  | found c r a n hs ih =>
    obtain ⟨ha, ht⟩ := recognizes_placeholder.eq_append_drop hs
    rw [Text.pieces_cons, hs]
    cases before with
    | nil =>
      obtain ⟨rfl, hafter⟩ := recognizes_placeholder.eq_of_append_eq ha hname (ht.symm.trans h)
      refine ⟨[], _, rfl, rfl, ?_⟩
      rw [(recognizes_placeholder.cutFromLeft_pieces (r.drop n)).flatMap_write, hafter]
    | cons b before =>
      obtain ⟨b', hb, hr⟩ := append_of_placeholder_append_eq ha (List.cons_ne_nil b before)
        (ht.symm.trans h)
      obtain ⟨qs, rs, hp, hq, hrs⟩ := ih b' hr
      refine ⟨.found a :: qs, rs, ?_, ?_, hrs⟩
      · dsimp only
        rw [hp]
        rfl
      · rw [List.flatMap_cons, hq, hb]
        rfl

theorem cut_pieces (template : Text) : Cut template (pieces placeholder? template) where
  written := (recognizes_placeholder.cutFromLeft_pieces template).flatMap_write
  isName _ := (recognizes_placeholder.cutFromLeft_pieces template).ok_of_mem
  whole before _ after hname h := pieces_append_placeholder hname template before after h

theorem Cut.eq_nil_of_write {qs : List (Piece Text)}
    (h : qs.flatMap (Piece.write placeholder) = []) : qs = [] := by
  cases qs with
  | nil => rfl
  | cons q qs => cases q <;> simp [Piece.write, placeholder_eq] at h

theorem Cut.tail {p : Piece Text} {ps : List (Piece Text)} (h : Cut template (p :: ps)) :
    Cut (ps.flatMap (Piece.write placeholder)) ps where
  written := rfl
  isName name hm := h.isName name (List.mem_cons_of_mem p hm)
  whole before name after hname he := by
    have ht : template = (Piece.write placeholder p ++ before) ++ placeholder name ++ after := by
      rw [← h.written, List.flatMap_cons, he]
      simp
    obtain ⟨qs, rs, hq, hb, ha⟩ := h.whole _ name after hname ht
    cases qs with
    | nil =>
      have hp : Piece.write placeholder p = [] := (List.append_eq_nil_iff.mp hb.symm).1
      have hnil : [p] = [] := Cut.eq_nil_of_write (by simp [hp])
      exact absurd hnil (by simp)
    | cons q qs =>
      obtain ⟨rfl, hps⟩ := List.cons.inj hq
      exact ⟨qs, rs, hps, List.append_cancel_left hb, ha⟩

theorem Cut.head {p : Piece Text} {ps : List (Piece Text)} {rest : Text}
    (h : Cut template (p :: ps)) (hname : IsName name) (ht : template = placeholder name ++ rest) :
    p = .found name := by
  obtain ⟨qs, rs, hq, hb, _⟩ := h.whole [] name rest hname ht
  obtain rfl := Cut.eq_nil_of_write hb
  exact (List.cons.inj hq).1

theorem Cut.unique {ps qs : List (Piece Text)} (hp : Cut template ps) (hq : Cut template qs) :
    ps = qs := by
  induction ps generalizing template qs with
  | nil => exact (Cut.eq_nil_of_write (hq.written.trans hp.written.symm)).symm
  | cons p ps ih =>
    cases qs with
    | nil => exact Cut.eq_nil_of_write (hp.written.trans hq.written.symm)
    | cons q qs =>
      have hw : (p :: ps).flatMap (Piece.write placeholder) =
          (q :: qs).flatMap (Piece.write placeholder) := hp.written.trans hq.written.symm
      have he : p = q := by
        cases p with
        | found a =>
          exact (hq.head (hp.isName a List.mem_cons_self) hp.written.symm).symm
        | plain c =>
          cases q with
          | found a => exact hp.head (hq.isName a List.mem_cons_self) hq.written.symm
          | plain d =>
            obtain ⟨rfl, _⟩ := List.cons.inj hw
            rfl
      subst he
      rw [List.flatMap_cons, List.flatMap_cons] at hw
      have ht := List.append_cancel_left hw
      rw [ih hp.tail (by rw [ht]; exact hq.tail)]

end LineMarkup.Template
