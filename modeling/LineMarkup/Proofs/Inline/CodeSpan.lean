import LineMarkup.Proofs.Inline.Divergence

/-!
Code spans put aside. With a mark in the place of every code span the later rules do the same as on
the spans themselves, as long as no parenthesis inside of a span ends the target of a link.
-/

namespace LineMarkup.Inline

set_option autoImplicit false

open Escape (Marked isReserved literalMark)
open Text (Piece pieces)

/-- What the rule for code spans sees of a line. -/
def uncommented (line : Text) : Text := Rule.comment.apply (Escape.shieldEscapes line)

def spansOf : List (Piece Text) → List Text
  | [] => []
  | .plain _ :: ps => spansOf ps
  | .found text :: ps => text :: spansOf ps

/-- The texts of the code spans, one after the other. -/
def spans (t : Text) : List Text := spansOf (pieces (pair? '\x60') t)

def hideFrom : List Char → List (Piece Text) → Text
  | _, [] => []
  | marks, .plain c :: ps => c :: hideFrom marks ps
  | marks, .found _ :: ps => marks.take 1 ++ hideFrom (marks.drop 1) ps

/-- The text with the marks, in their order, in the place of its code spans. -/
def hide (marks : List Char) (t : Text) : Text := hideFrom marks (pieces (pair? '\x60') t)

/-- One mark for every code span, each of them neutral, no two the same and none in the text. -/
structure Covers (marks : List Char) (t : Text) : Prop where
  length : marks.length = (spans t).length
  nodup : marks.Nodup
  neutral : ∀ m ∈ marks, isNeutral m = true
  absent : ∀ m ∈ marks, m ∉ t

/-- What is written for a mark in the table; other characters are kept. -/
def reveal (write : Text → Text) (table : List (Char × Text)) (c : Char) : Text :=
  match table.find? fun p => p.1 = c with
  | some p => write p.2
  | none => [c]

/-- A code span as it is to come out. -/
def codeText (text : Text) : Text :=
  "<code>".toList ++ Escape.unshield text ++ "</code>".toList

/-- What the rule for links sees of a line with its code spans put aside. -/
def emphasized (marks : List Char) (line : Text) : Text :=
  Rule.emphasis.apply (hide marks (uncommented line))

/-- Converts a line with its code spans put aside. -/
def convertHiding (marks : List Char) (line : Text) : Text :=
  (Escape.unshield (Rule.heading.apply (Rule.link.apply (emphasized marks line)))).flatMap
    (reveal codeText (marks.zip (spans (uncommented line))))

/-- Wherever a link opens, up to the next parenthesis that can close its target, no mark stands for a
text that holds a closing parenthesis. -/
def SparesTargets (table : List (Char × Text)) (t : Text) : Prop :=
  ∀ u ∈ Text.places link? t, ∀ label rest, Opens u label rest →
    ∀ p ∈ table, p.1 ∈ rest.takeWhile (· ≠ ')') → ')' ∉ p.2

section Pieces
variable {ps : List (Piece Text)} {marks : List Char}

theorem hideFrom_flatMap {φ : Char → Text} {write : Text → Text}
    (hlen : marks.length = (spansOf ps).length)
    (hmark : ∀ p ∈ marks.zip (spansOf ps), φ p.1 = write p.2)
    (hplain : ∀ c, .plain c ∈ ps → φ c = [c]) :
    (hideFrom marks ps).flatMap φ = ps.flatMap (Piece.write write) := by
  induction ps generalizing marks with
  | nil => rfl
  | cons piece ps ih =>
    have hrest : ∀ c, .plain c ∈ ps → φ c = [c] := fun c hc => hplain c (List.mem_cons_of_mem _ hc)
    cases piece with
    | plain c =>
      rw [hideFrom, List.flatMap_cons, List.flatMap_cons, hplain c List.mem_cons_self,
        ih hlen hmark hrest]
      rfl
    | found text =>
      cases marks with
      | nil => simp [spansOf] at hlen
      | cons m marks =>
        rw [spansOf, List.zip_cons_cons, List.forall_mem_cons] at hmark
        have hlen' : marks.length = (spansOf ps).length := Nat.succ.inj hlen
        have ih' := ih hlen' hmark.2 hrest
        have hhide : hideFrom (m :: marks) (.found text :: ps) = m :: hideFrom marks ps := rfl
        rw [hhide, List.flatMap_cons, List.flatMap_cons, hmark.1, ih']
        rfl

theorem mem_hideFrom {c : Char} (h : c ∈ hideFrom marks ps) : c ∈ marks ∨ .plain c ∈ ps := by
  induction ps generalizing marks with
  | nil => exact absurd h List.not_mem_nil
  | cons piece ps ih =>
    cases piece with
    | plain d =>
      rcases List.mem_cons.mp h with rfl | h
      · exact Or.inr List.mem_cons_self
      · rcases ih h with h | h
        · exact Or.inl h
        · exact Or.inr (List.mem_cons_of_mem _ h)
    | found text =>
      rcases List.mem_append.mp h with h | h
      · exact Or.inl (List.mem_of_mem_take h)
      · rcases ih h with h | h
        · exact Or.inl (List.mem_of_mem_drop h)
        · exact Or.inr (List.mem_cons_of_mem _ h)

end Pieces

theorem spans_plain {c : Char} {r : Text} (h : pair? '\x60' (c :: r) = none) :
    spans (c :: r) = spans r := by
  rw [spans, Text.pieces_cons, h]
  rfl

theorem spans_found {c : Char} {r inner : Text} {n : Nat}
    (h : pair? '\x60' (c :: r) = some (inner, n)) : spans (c :: r) = inner :: spans (r.drop n) := by
  rw [spans, Text.pieces_cons, h]
  rfl

theorem hide_plain (marks : List Char) {c : Char} {r : Text} (h : pair? '\x60' (c :: r) = none) :
    hide marks (c :: r) = c :: hide marks r := by
  rw [hide, Text.pieces_cons, h]
  rfl

theorem hide_found (marks : List Char) {c : Char} {r inner : Text} {n : Nat}
    (h : pair? '\x60' (c :: r) = some (inner, n)) :
    hide marks (c :: r) = marks.take 1 ++ hide (marks.drop 1) (r.drop n) := by
  rw [hide, Text.pieces_cons, h]
  rfl

theorem mem_of_mem_spans {t text : Text} (h : text ∈ spans t) : ∀ c ∈ text, c ∈ t := by
  induction t using Text.scan_induction (pair? '\x60') with
  | nil => exact absurd h List.not_mem_nil
  | plain d r hs ih =>
    rw [spans_plain hs] at h
    exact fun c hc => List.mem_cons_of_mem d (ih h c hc)
  | found d r inner n hs ih =>
    rw [spans_found hs] at h
    rcases List.mem_cons.mp h with rfl | h
    · obtain ⟨rfl, rfl, -, rest, rfl⟩ := pair?_eq_some_iff.mp hs
      intro c hc
      simp [hc]
    · exact fun c hc => List.mem_cons_of_mem d (List.mem_of_mem_drop (ih h c hc))

theorem marked_of_mem_spans {t : Text} (ht : Marked t) : ∀ text ∈ spans t, Marked text := by
  have hm : isReserved '\x60' = false := by decide
  refine marked_pair_induction hm (motive := fun t => ∀ text ∈ spans t, Marked text) ?_ ?_ ?_ ?_ ht
  · exact fun text h => absurd h List.not_mem_nil
  · intro c r _ hs ih
    rwa [spans_plain hs]
  · intro c r _ hs hs' ih
    rwa [spans_plain hs, spans_plain hs']
  · intro c r inner n hs hinner ih
    rw [spans_found hs, List.forall_mem_cons]
    exact ⟨hinner, ih⟩

theorem marked_hide {t : Text} (ht : Marked t) : ∀ marks : List Char,
    (∀ m ∈ marks, isReserved m = false) → Marked (hide marks t) := by
  have hm : isReserved '\x60' = false := by decide
  refine marked_pair_induction hm (motive := fun t => ∀ marks : List Char,
    (∀ m ∈ marks, isReserved m = false) → Marked (hide marks t)) ?_ ?_ ?_ ?_ ht
  · exact fun marks _ => .nil
  · intro c r hc hs ih marks hmarks
    rw [hide_plain marks hs]
    exact .plain hc (ih marks hmarks)
  · intro c r hc hs hs' ih marks hmarks
    rw [hide_plain marks hs, hide_plain marks hs']
    exact .literal hc (ih marks hmarks)
  · intro c r inner n hs _ ih marks hmarks
    rw [hide_found marks hs]
    have htake : Marked (marks.take 1) := .of_not_mem fun hl =>
      absurd (hmarks _ (List.mem_of_mem_take hl)) (by decide)
    exact htake.append (ih _ fun m hm => hmarks m (List.mem_of_mem_drop hm))

section Reveal
variable {write : Text → Text} {table : List (Char × Text)} {c : Char}

theorem reveal_of_mem (hn : (table.map Prod.fst).Nodup) {p : Char × Text} (hp : p ∈ table) :
    reveal write table p.1 = write p.2 := by
  have hf : table.find? (fun q => q.1 = p.1) = some p := by
    induction table with
    | nil => exact absurd hp List.not_mem_nil
    | cons q table ih =>
      rw [List.map_cons, List.nodup_cons] at hn
      rw [List.find?_cons]
      rcases List.mem_cons.mp hp with rfl | hp
      · rw [decide_eq_true rfl]
      · have hq : q.1 ≠ p.1 := by
          intro hq
          exact hn.1 (hq ▸ List.mem_map_of_mem hp)
        rw [decide_eq_false hq]
        exact ih hn.2 hp
  rw [reveal, hf]

theorem reveal_of_not_mem (h : ∀ p ∈ table, p.1 ≠ c) : reveal write table c = [c] := by
  have hf : table.find? (fun q => q.1 = c) = none := by
    rw [List.find?_eq_none]
    exact fun p hp he => h p hp (of_decide_eq_true he)
  rw [reveal, hf]

end Reveal

/-- A table of neutral marks, no two the same, for texts without newlines. -/
structure IsTable (table : List (Char × Text)) : Prop where
  nodup : (table.map Prod.fst).Nodup
  neutral : ∀ p ∈ table, isNeutral p.1 = true
  line : ∀ p ∈ table, '\n' ∉ p.2

theorem Covers.isTable {marks : List Char} {t : Text} (h : Covers marks t) (hn : '\n' ∉ t) :
    IsTable (marks.zip (spans t)) where
  nodup := by
    rw [List.map_fst_zip (Nat.le_of_eq h.length)]
    exact h.nodup
  neutral _ hp := h.neutral _ (List.of_mem_zip hp).1
  line _ hp hm := hn (mem_of_mem_spans (List.of_mem_zip hp).2 _ hm)

theorem shield_ne {a : Char} (ha : isReserved a = false) (hs : Escape.shield a ≠ a) (c : Char) :
    Escape.shield c ≠ a := by
  rintro rfl
  rcases Escape.shield_eq_self_or c with he | he
  · exact hs (by rw [he, he])
  · exact Bool.noConfusion (ha.symm.trans (Escape.isReserved_of_mem_shields _ he).2.1)

theorem mem_codeHtml {text : Text} {d : Char} (h : d ∈ codeHtml text) :
    d ∈ "<code>/".toList ∨ ∃ c ∈ text, Escape.shield c = d := by
  have hopen : ∀ d ∈ "<code>".toList, d ∈ "<code>/".toList := by decide
  have hclose : ∀ d ∈ "</code>".toList, d ∈ "<code>/".toList := by decide
  rcases List.mem_append.mp h with h | h
  · rcases List.mem_append.mp h with h | h
    · exact Or.inl (hopen d h)
    · exact Or.inr (List.mem_map.mp h)
  · exact Or.inl (hclose d h)

theorem codeHtml_cons (text : Text) : ∃ r, codeHtml text = '<' :: r := by
  have hopen : "<code>".toList = ['<', 'c', 'o', 'd', 'e', '>'] := by decide
  have hcons : ∀ {a w : Text} {d : Char}, a = d :: w → ∀ x b : Text, ∃ r, a ++ x ++ b = d :: r := by
    rintro a w d rfl x b
    exact ⟨w ++ x ++ b, rfl⟩
  exact hcons hopen _ _

theorem paren_mem_codeHtml {text : Text} : ')' ∈ codeHtml text ↔ ')' ∈ text := by
  constructor
  · intro h
    have hmarkup : ')' ∉ "<code>/".toList := by decide
    rcases mem_codeHtml h with h | ⟨c, hc, hs⟩
    · exact absurd h hmarkup
    · rcases Escape.shield_eq_self_or c with he | he
      · rw [he] at hs
        exact hs ▸ hc
      · rw [hs] at he
        have hr : isReserved ')' = true := (Escape.isReserved_of_mem_shields _ he).2.1
        exact absurd hr (by decide)
  · intro h
    have hs : ')' ∈ Escape.shieldText text := List.mem_map.mpr ⟨')', h, by decide⟩
    exact List.mem_append_left _ (List.mem_append_right _ hs)

theorem unshield_codeHtml {text : Text} (h : Marked text) :
    Escape.unshield (codeHtml text) = codeText text := by
  have hbetween : ∀ {a b x : Text}, Marked a → Marked x → Escape.unshield a = a →
      Escape.unshield b = b → Escape.unshield (a ++ x ++ b) = a ++ Escape.unshield x ++ b := by
    intro a b x ha hx hua hub
    rw [Escape.unshield_append (ha.append hx), Escape.unshield_append ha, hua, hub]
  exact (hbetween (marked_of_ascii (by decide)) h.shieldText (by decide) (by decide)).trans
    (congrArg (fun u => "<code>".toList ++ u ++ "</code>".toList) (Escape.unshield_shieldText h))

namespace IsTable
variable {table : List (Char × Text)} (h : IsTable table)
include h

theorem reveal_or (write : Text → Text) (c : Char) :
    (∃ p ∈ table, p.1 = c ∧ reveal write table c = write p.2) ∨ reveal write table c = [c] := by
  by_cases hc : ∃ p ∈ table, p.1 = c
  · obtain ⟨p, hp, rfl⟩ := hc
    exact Or.inl ⟨p, hp, rfl, reveal_of_mem h.nodup hp⟩
  · exact Or.inr (reveal_of_not_mem fun p hp he => hc ⟨p, hp, he⟩)

theorem reveal_of_not_neutral (write : Text → Text) {c : Char} (hc : isNeutral c = false) :
    reveal write table c = [c] := by
  apply reveal_of_not_mem
  rintro p hp rfl
  exact Bool.noConfusion (hc.symm.trans (h.neutral p hp))

theorem veil : Veil (reveal codeHtml table) where
  keeps _ := h.reveal_of_not_neutral codeHtml
  hides := by
    intro c hc d hd
    rcases h.reveal_or codeHtml c with ⟨p, hp, _, hw⟩ | hw
    · rw [hw] at hd
      have hmarkup : ∀ d ∈ "<code>/".toList, d ≠ '*' ∧ d ≠ '[' ∧ d ≠ ']' ∧ d ≠ '\n' := by decide
      rcases mem_codeHtml hd with hd | ⟨e, he, rfl⟩
      · exact hmarkup d hd
      · refine ⟨shield_ne (by decide) (by decide) e, shield_ne (by decide) (by decide) e,
          shield_ne (by decide) (by decide) e, ?_⟩
        intro hs
        exact newline_not_mem_shieldText (h.line p hp) (hs ▸ List.mem_map_of_mem he)
    · rw [hw, List.mem_singleton] at hd
      exact hidden_of_dark (hd ▸ (isNeutral_iff.mp hc).1)
  head := by
    intro c hc
    rcases h.reveal_or codeHtml c with ⟨p, _, _, hw⟩ | hw
    · obtain ⟨r, hr⟩ := codeHtml_cons p.2
      exact ⟨'<', r, hw.trans hr, by decide, by decide, by decide, by decide⟩
    · obtain ⟨ha, hs, _⟩ := isNeutral_iff.mp hc
      obtain ⟨hopen, hclose, hsign⟩ := head_of_dark ha
      exact ⟨c, [], hw, hopen, hclose, hsign, hs⟩

theorem keepsTarget_iff (u : Text) : KeepsTarget (reveal codeHtml table) u ↔
    ∀ label rest, Opens u label rest →
      ∀ p ∈ table, p.1 ∈ rest.takeWhile (· ≠ ')') → ')' ∉ p.2 := by
  constructor
  · intro hk label rest ho p hp hm ht
    apply hk label rest ho p.1 hm
    rw [reveal_of_mem h.nodup hp]
    exact paren_mem_codeHtml.mpr ht
  · intro hk label rest ho c hc hm
    rcases h.reveal_or codeHtml c with ⟨p, hp, rfl, hw⟩ | hw
    · rw [hw] at hm
      exact hk label rest ho p hp hc (paren_mem_codeHtml.mp hm)
    · rw [hw, List.mem_singleton] at hm
      have hne : c ≠ ')' := of_decide_eq_true (List.all_eq_true.mp List.all_takeWhile c hc)
      exact hne hm.symm

theorem marked_flatMap (hm : ∀ p ∈ table, Marked p.2) {t : Text} (ht : Marked t) :
    Marked (t.flatMap (reveal codeHtml table)) := by
  apply ht.flatMap
  · exact fun c hc => h.reveal_of_not_neutral codeHtml (isNeutral_of_isReserved hc)
  · intro c hc
    rcases h.reveal_or codeHtml c with ⟨p, hp, _, hw⟩ | hw
    · rw [hw]
      exact marked_codeHtml (hm p hp)
    · rw [hw]
      exact .plain hc .nil

theorem unshield_flatMap_reveal (hm : ∀ p ∈ table, Marked p.2) {t : Text} (ht : Marked t) :
    Escape.unshield (t.flatMap (reveal codeHtml table)) =
      (Escape.unshield t).flatMap (reveal codeText table) := by
  apply Escape.unshield_flatMap ht
  · intro c hc
    have hn := isNeutral_of_isReserved hc
    exact ⟨h.reveal_of_not_neutral codeHtml hn, h.reveal_of_not_neutral codeText hn⟩
  · intro c hc _
    by_cases hmem : ∃ p ∈ table, p.1 = c
    · obtain ⟨p, hp, rfl⟩ := hmem
      have hr := (isNeutral_iff.mp (h.neutral p hp)).2.2
      rw [reveal_of_mem h.nodup hp, Escape.unshieldChar_eq_self hr, reveal_of_mem h.nodup hp]
      exact ⟨marked_codeHtml (hm p hp), unshield_codeHtml (hm p hp)⟩
    · have habsent : ∀ p ∈ table, p.1 ≠ c := fun p hp he => hmem ⟨p, hp, he⟩
      rw [reveal_of_not_mem habsent]
      refine ⟨.plain hc .nil, ?_⟩
      rw [Escape.unshield_cons hc]
      rcases Escape.unshieldChar_eq_self_or c with hu | hu
      · rw [hu, reveal_of_not_mem habsent]
        rfl
      · have hn := isNeutral_of_ascii (Escape.toNat_of_mem_shields _ hu)
        rw [h.reveal_of_not_neutral codeText hn]
        rfl

end IsTable

theorem marked_uncommented (line : Text) : Marked (uncommented line) :=
  marked_dropComment (Escape.marked_shieldEscapes line)

theorem marked_texts (marks : List Char) (line : Text) :
    ∀ p ∈ marks.zip (spans (uncommented line)), Marked p.2 :=
  fun p hp => marked_of_mem_spans (marked_uncommented line) p.2 (List.of_mem_zip hp).2

namespace Covers
variable {marks : List Char} {line : Text} (h : Covers marks (uncommented line))
include h

theorem codeSpan_eq : Rule.codeSpan.apply (uncommented line) =
    (hide marks (uncommented line)).flatMap
      (reveal codeHtml (marks.zip (spans (uncommented line)))) := by
  have hn : ((marks.zip (spans (uncommented line))).map Prod.fst).Nodup := by
    rw [List.map_fst_zip (Nat.le_of_eq h.length)]
    exact h.nodup
  refine (hideFrom_flatMap h.length (fun p hp => reveal_of_mem hn hp) ?_).symm
  intro c hc
  apply reveal_of_not_mem
  rintro p hp rfl
  exact h.absent p.1 (List.of_mem_zip hp).1 (Text.mem_of_plain_mem_pieces hc)

theorem convert_eq (hn : '\n' ∉ uncommented line) : convert line =
    Escape.unshield (Rule.heading.apply (Rule.link.apply ((emphasized marks line).flatMap
      (reveal codeHtml (marks.zip (spans (uncommented line))))))) := by
  rw [emphasized, ← (h.isTable hn).veil.emphasis, ← h.codeSpan_eq]
  simp only [convert, Rule.all, List.foldl_cons, List.foldl_nil, uncommented]

theorem marked_emphasized : Marked (emphasized marks line) := by
  apply Rule.emphasis.marked_apply
  exact marked_hide (marked_uncommented line) marks fun m hm => (isNeutral_iff.mp (h.neutral m hm)).2.2

theorem convertHiding_eq (hn : '\n' ∉ uncommented line) : convertHiding marks line =
    Escape.unshield (Rule.heading.apply ((Rule.link.apply (emphasized marks line)).flatMap
      (reveal codeHtml (marks.zip (spans (uncommented line)))))) := by
  have htable := h.isTable hn
  have hm := Rule.heading.marked_apply (Rule.link.marked_apply h.marked_emphasized)
  rw [convertHiding, htable.veil.heading, ← htable.unshield_flatMap_reveal (marked_texts marks line) hm]

theorem newline_not_mem_emphasized (hn : '\n' ∉ uncommented line) : '\n' ∉ emphasized marks line := by
  apply Rule.emphasis.newline_not_mem_apply
  intro hm
  rcases mem_hideFrom hm with hm | hm
  · exact absurd (h.neutral _ hm) (by decide)
  · exact hn (Text.mem_of_plain_mem_pieces hm)

theorem sparesTargets_iff (hn : '\n' ∉ uncommented line) :
    SparesTargets (marks.zip (spans (uncommented line))) (emphasized marks line) ↔
      ∀ u ∈ Text.places link? (emphasized marks line),
        KeepsTarget (reveal codeHtml (marks.zip (spans (uncommented line)))) u := by
  constructor
  · exact fun hs u hu => ((h.isTable hn).keepsTarget_iff u).mpr (hs u hu)
  · exact fun hs u hu => ((h.isTable hn).keepsTarget_iff u).mp (hs u hu)

end Covers

theorem newline_not_mem_uncommented {line : Text} (hn : '\n' ∉ line) : '\n' ∉ uncommented line :=
  Rule.comment.newline_not_mem_apply (Escape.newline_not_mem_shieldEscapes hn)

/-- Converting a line is converting it with its code spans put aside, if and only if no code span in
the target of a link holds a parenthesis that ends the target. -/
theorem convert_eq_convertHiding_iff {marks : List Char} {line : Text} (hn : '\n' ∉ line)
    (h : Covers marks (uncommented line)) :
    convert line = convertHiding marks line ↔
      SparesTargets (marks.zip (spans (uncommented line))) (emphasized marks line) := by
  have hs := newline_not_mem_uncommented hn
  have htable := h.isTable hs
  have hveil := htable.veil
  have hemph := h.newline_not_mem_emphasized hs
  rw [h.convert_eq hs, h.convertHiding_eq hs, h.sparesTargets_iff hs]
  constructor
  · intro he
    apply Classical.byContradiction
    intro hk
    have hbefore := Rule.link.newline_not_mem_apply (hveil.newline.not_mem_flatMap hemph)
    have hafter := hveil.newline.not_mem_flatMap (Rule.link.newline_not_mem_apply hemph)
    have hmarked {t : Text} (ht : Marked t) := htable.marked_flatMap (marked_texts marks line) ht
    have hmbefore := Rule.link.marked_apply (hmarked h.marked_emphasized)
    have hmafter := hmarked (Rule.link.marked_apply h.marked_emphasized)
    have hd := (hveil.link_diverge hk).wrapHeading hbefore hafter
    exact hd.unshield_ne (marked_wrapHeading hmbefore) (marked_wrapHeading hmafter) he
  · intro hk
    rw [hveil.link hk]

theorem convert_eq_convertHiding_iff_greek :
    '\n' ∉ "# *`*`* [`a`](`b`c) `)".toList ∧
      Covers ['\u03B1', '\u03B2', '\u03B3'] (uncommented "# *`*`* [`a`](`b`c) `)".toList) ∧
      (convert "# *`*`* [`a`](`b`c) `)".toList =
          convertHiding ['\u03B1', '\u03B2', '\u03B3'] "# *`*`* [`a`](`b`c) `)".toList ↔
        SparesTargets (['\u03B1', '\u03B2', '\u03B3'].zip
            (spans (uncommented "# *`*`* [`a`](`b`c) `)".toList)))
          (emphasized ['\u03B1', '\u03B2', '\u03B3'] "# *`*`* [`a`](`b`c) `)".toList)) :=
  have hn : '\n' ∉ "# *`*`* [`a`](`b`c) `)".toList := by decide
  have h : Covers ['\u03B1', '\u03B2', '\u03B3'] (uncommented "# *`*`* [`a`](`b`c) `)".toList) :=
    ⟨by decide, by decide, by decide, by decide⟩
  ⟨hn, h, convert_eq_convertHiding_iff hn h⟩

/-- A parenthesis inside of a code span can end the target of a link, and the span is torn. -/
theorem convert_ne_convertHiding :
    '\n' ∉ "[a](`x)y`)".toList ∧ Covers ['\u03B1'] (uncommented "[a](`x)y`)".toList) ∧
      convert "[a](`x)y`)".toList = "<a href=\"<code>x\">a</a>y</code>)".toList ∧
      convertHiding ['\u03B1'] "[a](`x)y`)".toList = "<a href=\"<code>x)y</code>\">a</a>".toList ∧
      convert "[a](`x)y`)".toList ≠ convertHiding ['\u03B1'] "[a](`x)y`)".toList := by
  refine ⟨by decide, ⟨by decide, by decide, by decide, by decide⟩, by decide, by decide, by decide⟩

end LineMarkup.Inline
