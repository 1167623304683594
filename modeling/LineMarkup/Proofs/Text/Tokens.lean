import LineMarkup.Proofs.Text.Scan

/-!
Tokens of a text. A site that finds the written forms of its finds and nothing else cuts a text at the
leftmost token, goes on behind that token, and so on until no token is left. This is the only cut of
its kind, and writing the tokens for the finds gives the text back.
-/

namespace LineMarkup.Text

set_option autoImplicit false

variable {α : Type} {site : Site α} {token : α → Text} {ok : α → Prop}

/-- The text starts with a token, which is what is written for a find that is `ok`. -/
def Begins (token : α → Text) (ok : α → Prop) (t : Text) : Prop :=
  ∃ a rest, ok a ∧ t = token a ++ rest

/-- No token starts at a character of `w`, where `rest` follows. -/
def NoneWithin (token : α → Text) (ok : α → Prop) (w rest : Text) : Prop :=
  ∀ x c y, w = x ++ c :: y → ¬ Begins token ok (c :: y ++ rest)

/-- A text cut at its tokens from the left: at the first one, and again behind its end, for as long as
there are any. -/
inductive CutFromLeft (token : α → Text) (ok : α → Prop) : Text → List (Piece α) → Prop where
  | last {t : Text} : NoneWithin token ok t [] → CutFromLeft token ok t (t.map .plain)
  | next {before rest : Text} {a : α} {ps : List (Piece α)} : ok a →
      NoneWithin token ok before (token a ++ rest) → CutFromLeft token ok rest ps →
      CutFromLeft token ok (before ++ (token a ++ rest)) (before.map .plain ++ .found a :: ps)

/-- The site finds the tokens at the start of a text, takes them whole, and finds nothing else. -/
structure Recognizes (site : Site α) (token : α → Text) (ok : α → Prop) : Prop where
  ne_nil : ∀ a, token a ≠ []
  find : ∀ a rest, ok a → site (token a ++ rest) = some (a, (token a).length - 1)
  begins : ∀ t a n, site t = some (a, n) → ok a ∧ ∃ rest, t = token a ++ rest

theorem NoneWithin.nil (rest : Text) : NoneWithin token ok [] rest :=
  fun x c y h => absurd h (by simp)

theorem NoneWithin.cons {c : Char} {w rest : Text} (hw : NoneWithin token ok w rest)
    (hc : ¬ Begins token ok (c :: w ++ rest)) : NoneWithin token ok (c :: w) rest := by
  intro x d y h
  cases x with
  | nil =>
    obtain ⟨rfl, rfl⟩ := List.cons.inj h
    exact hc
  | cons _ x => exact hw x d y (List.cons.inj h).2

theorem CutFromLeft.cons {c : Char} {t : Text} {ps : List (Piece α)}
    (hc : ¬ Begins token ok (c :: t)) (h : CutFromLeft token ok t ps) :
    CutFromLeft token ok (c :: t) (.plain c :: ps) := by
  cases h with
  | last hw => exact .last (hw.cons (by rwa [List.append_nil]))
  | next ha hw hrest =>
    have hcut := CutFromLeft.next ha (hw.cons hc) hrest
    exact hcut

theorem flatMap_write_plain (f : α → Text) (w : Text) :
    (w.map Piece.plain).flatMap (Piece.write f) = w := by
  induction w with
  | nil => rfl
  | cons c w ih => exact congrArg (c :: ·) ih

/-- Writing the tokens for the finds gives back what was cut. -/
theorem CutFromLeft.flatMap_write {t : Text} {ps : List (Piece α)} (h : CutFromLeft token ok t ps) :
    ps.flatMap (Piece.write token) = t := by
  induction h with
  | last _ => exact flatMap_write_plain token _
  | next _ _ _ ih =>
    rw [List.flatMap_append, flatMap_write_plain, List.flatMap_cons, ih]
    rfl

theorem CutFromLeft.ok_of_mem {t : Text} {ps : List (Piece α)} (h : CutFromLeft token ok t ps) {a : α}
    (ha : .found a ∈ ps) : ok a := by
  induction h with
  | last _ => simp at ha
  | next hb _ _ ih =>
    simp only [List.mem_append, List.mem_map, reduceCtorEq, and_false, exists_false, false_or,
      List.mem_cons, Piece.found.injEq] at ha
    rcases ha with rfl | ha
    · exact hb
    · exact ih ha

namespace Recognizes
variable (h : Recognizes site token ok)
include h

theorem site_eq_none {t : Text} (ht : ¬ Begins token ok t) : site t = none := by
  cases hs : site t with
  | none => rfl
  | some p =>
    obtain ⟨ha, rest, he⟩ := h.begins t p.1 p.2 hs
    exact absurd ⟨p.1, rest, ha, he⟩ ht

/-- A text starts with at most one token. -/
theorem eq_of_append_eq {a b : α} {r s : Text} (ha : ok a) (hb : ok b)
    (he : token a ++ r = token b ++ s) : a = b ∧ r = s := by
  have hs := (h.find a r ha).symm.trans ((congrArg site he).trans (h.find b s hb))
  obtain rfl := (Prod.mk.inj (Option.some.inj hs)).1
  exact ⟨rfl, List.append_cancel_left he⟩

theorem pieces_token_append {a : α} (ha : ok a) (rest : Text) :
    pieces site (token a ++ rest) = .found a :: pieces site rest := by
  obtain ⟨c, r, hc⟩ := List.exists_cons_of_ne_nil (h.ne_nil a)
  have hs := h.find a rest ha
  rw [hc, List.cons_append] at hs ⊢
  rw [pieces_cons, hs]
  simp

theorem pieces_append {w rest : Text} (hw : NoneWithin token ok w rest) :
    pieces site (w ++ rest) = w.map .plain ++ pieces site rest := by
  induction w with
  | nil => rfl
  | cons c w ih =>
    have hs : site (c :: (w ++ rest)) = none := h.site_eq_none (hw [] c w rfl)
    have hw' : NoneWithin token ok w rest := fun x d y he => hw (c :: x) d y (by rw [he]; rfl)
    rw [List.cons_append, pieces_cons, hs, ih hw']
    rfl

/-- A find is a token at the start of the text, and what is not taken for it is what follows. -/
theorem eq_append_drop {c : Char} {r : Text} {a : α} {n : Nat} (hs : site (c :: r) = some (a, n)) :
    ok a ∧ c :: r = token a ++ r.drop n := by
  obtain ⟨ha, rest, he⟩ := h.begins _ a n hs
  refine ⟨ha, ?_⟩
  rw [he, h.find a rest ha] at hs
  obtain ⟨d, w, hd⟩ := List.exists_cons_of_ne_nil (h.ne_nil a)
  obtain rfl : (token a).length - 1 = n := (Prod.mk.inj (Option.some.inj hs)).2
  rw [hd, List.cons_append, List.cons.injEq] at he
  rw [hd, he.1, he.2]
  simp

theorem cutFromLeft_pieces (t : Text) : CutFromLeft token ok t (pieces site t) := by
  induction t using scan_induction site with
  | nil => exact .last (.nil [])
  | plain c r hs ih =>
    have hc : ¬ Begins token ok (c :: r) := by
      rintro ⟨a, rest, ha, he⟩
      rw [he, h.find a rest ha] at hs
      exact absurd hs (by simp)
    rw [pieces_cons, hs]
    exact ih.cons hc
  | found c r a n hs ih =>
    obtain ⟨ha, he⟩ := h.eq_append_drop hs
    rw [pieces_cons, hs, he]
    exact CutFromLeft.next ha (.nil _) ih

/-- What a scan makes of a text is the one cut at its tokens from the left. -/
theorem cutFromLeft_iff {t : Text} {ps : List (Piece α)} :
    CutFromLeft token ok t ps ↔ ps = pieces site t := by
  constructor
  · intro hcut
    induction hcut with
    | last hw =>
      have hp := h.pieces_append hw
      rw [List.append_nil, pieces_nil, List.append_nil] at hp
      exact hp.symm
    | next ha hw _ ih => rw [h.pieces_append hw, h.pieces_token_append ha, ih]
  · rintro rfl
    exact h.cutFromLeft_pieces t

end Recognizes

end LineMarkup.Text
