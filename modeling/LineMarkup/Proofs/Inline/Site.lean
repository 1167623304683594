import LineMarkup.Inline
import LineMarkup.Proofs.Text.Scan
import LineMarkup.Proofs.Text.Substitution

/-!
What the rules look for, said by the shape of the text: two marks and what is between them, a label
in brackets with a target in parentheses, a comment, a heading.
-/

namespace LineMarkup.Inline

set_option autoImplicit false

open Text (cut cut_eq_some_iff cut_eq_none_iff)

theorem pair?_looksFor (mark : Char) : Text.LooksFor (pair? mark) mark := by
  intro c r hc
  simp [pair?, hc]

theorem pair?_eq_some_iff {mark c : Char} {r inner : Text} {n : Nat} :
    pair? mark (c :: r) = some (inner, n) ↔
      c = mark ∧ n = inner.length + 1 ∧ mark ∉ inner ∧ ∃ rest, r = inner ++ mark :: rest := by
  by_cases hc : c = mark
  · simp only [pair?, if_pos hc, Option.map_eq_some_iff, Prod.exists, cut_eq_some_iff,
      Prod.mk.injEq]
    constructor
    · rintro ⟨before, rest, ⟨hr, hb⟩, rfl, rfl⟩
      exact ⟨hc, rfl, hb, rest, hr⟩
    · rintro ⟨_, rfl, hb, rest, hr⟩
      exact ⟨inner, rest, ⟨hr, hb⟩, rfl, rfl⟩
  · simp [pair?, hc]

theorem pair?_eq_none_iff {mark : Char} {r : Text} : pair? mark (mark :: r) = none ↔ mark ∉ r := by
  simp [pair?, cut_eq_none_iff]

/-- What is left of a text after its first `n + 1` characters, for a find of that length. -/
theorem drop_pair (inner : Text) (mark : Char) (rest : Text) :
    (inner ++ mark :: rest).drop (inner.length + 1) = rest := by
  rw [← List.drop_drop, List.drop_left]
  rfl

/-- A bracket, a label and the opening of a target. -/
def Opens (t label rest : Text) : Prop :=
  t = '[' :: (label ++ ']' :: '(' :: rest) ∧ label ≠ [] ∧ ']' ∉ label

theorem Opens.unique {t label rest label' rest' : Text} (h : Opens t label rest)
    (h' : Opens t label' rest') : label = label' ∧ rest = rest' := by
  have he := (List.cons.inj (h.1.symm.trans h'.1)).2
  obtain ⟨hl, hr⟩ := Text.eq_of_append_cons_eq h.2.2 h'.2.2 he
  exact ⟨hl, (List.cons.inj hr).2⟩

theorem link?_looksFor : Text.LooksFor link? '[' := by
  intro c r hc
  unfold link?
  split
  next h => exact absurd (List.cons.inj h).1 hc
  next => rfl

theorem link?_eq_some_iff {t : Text} {l : Link} {n : Nat} :
    link? t = some (l, n) ↔ n = l.label.length + l.target.length + 3 ∧ l.target ≠ [] ∧
      ')' ∉ l.target ∧ ∃ rest, Opens t l.label (l.target ++ ')' :: rest) := by
  constructor
  · intro h
    unfold link? at h
    split at h
    next r =>
      split at h
      next label s hl =>
        split at h
        next target rest hs =>
          split at h
          · simp at h
          next hne =>
            obtain ⟨rfl, hb⟩ := cut_eq_some_iff.mp hl
            obtain ⟨rfl, ht⟩ := cut_eq_some_iff.mp hs
            simp only [Bool.or_eq_true, List.isEmpty_iff, not_or] at hne
            simp only [Option.some.injEq, Prod.mk.injEq] at h
            obtain ⟨rfl, rfl⟩ := h
            exact ⟨rfl, hne.2, ht, rest, rfl, hne.1, hb⟩
        next => simp at h
      next => simp at h
    next => simp at h
  · rintro ⟨rfl, hne, ht, rest, rfl, hl, hb⟩
    have h₁ : cut ']' (l.label ++ ']' :: '(' :: (l.target ++ ')' :: rest)) =
        some (l.label, '(' :: (l.target ++ ')' :: rest)) := cut_eq_some_iff.mpr ⟨rfl, hb⟩
    have h₂ : cut ')' (l.target ++ ')' :: rest) = some (l.target, rest) :=
      cut_eq_some_iff.mpr ⟨rfl, ht⟩
    simp only [link?, h₁, h₂]
    rw [if_neg (by simp [hl, hne])]

theorem apply_link_plain {c : Char} {r : Text} (h : link? (c :: r) = none) :
    Rule.link.apply (c :: r) = c :: Rule.link.apply r :=
  Text.replaceAll_plain h

theorem apply_link_found {c : Char} {r : Text} {l : Link} {n : Nat}
    (h : link? (c :: r) = some (l, n)) :
    Rule.link.apply (c :: r) = l.html ++ Rule.link.apply (r.drop n) :=
  Text.replaceAll_found h

/-- What follows a link is what is left after as many characters as the find says. -/
theorem Opens.drop_link {c : Char} {r label target rest : Text}
    (h : Opens (c :: r) label (target ++ ')' :: rest)) :
    r.drop (label.length + target.length + 3) = rest := by
  have hr : r = (label ++ [']', '('] ++ target ++ [')']) ++ rest := by
    rw [(List.cons.inj h.1).2]
    simp
  rw [hr]
  apply List.drop_left'
  simp
  omega

theorem Opens.apply_link {t label target rest : Text} (h : Opens t label (target ++ ')' :: rest))
    (hne : target ≠ []) (hp : ')' ∉ target) :
    Rule.link.apply t = Link.html ⟨label, target⟩ ++ Rule.link.apply rest := by
  have hs : link? t = some (⟨label, target⟩, label.length + target.length + 3) :=
    link?_eq_some_iff.mpr ⟨rfl, hne, hp, rest, h⟩
  cases t with
  | nil => exact absurd h.1 (by simp)
  | cons c r => rw [apply_link_found hs, h.drop_link]

/-- A label in brackets and right after it a target in parentheses, at any place of a text. -/
def HoldsLink (t : Text) : Prop :=
  ∃ before label target after, t = before ++ '[' :: (label ++ ']' :: '(' :: (target ++ ')' :: after)) ∧
    label ≠ [] ∧ ']' ∉ label ∧ target ≠ [] ∧ ')' ∉ target

theorem holdsLink_iff {t : Text} :
    HoldsLink t ↔ ∃ before r l n, t = before ++ '[' :: r ∧ link? ('[' :: r) = some (l, n) := by
  constructor
  · rintro ⟨before, label, target, after, rfl, hl, hb, ht, hp⟩
    exact ⟨before, _, ⟨label, target⟩, _, rfl,
      link?_eq_some_iff.mpr ⟨rfl, ht, hp, after, rfl, hl, hb⟩⟩
  · rintro ⟨before, r, l, n, rfl, h⟩
    obtain ⟨_, ht, hp, after, he, hl, hb⟩ := link?_eq_some_iff.mp h
    exact ⟨before, l.label, l.target, after, by rw [he], hl, hb, ht, hp⟩

theorem HoldsLink.mem {t : Text} (h : HoldsLink t) : ')' ∈ t := by
  obtain ⟨before, label, target, after, rfl, _⟩ := h
  simp

theorem apply_link_eq_self {t : Text} (h : ¬ HoldsLink t) : Rule.link.apply t = t := by
  apply Text.replaceAll_eq_self
  intro before c after ht
  by_cases hc : c = '['
  · subst hc
    cases hs : link? ('[' :: after) with
    | none => rfl
    | some p => exact absurd (holdsLink_iff.mpr ⟨before, after, p.1, p.2, ht, hs⟩) h
  · exact link?_looksFor c after hc

theorem replaceAll_pair_eq_self {mark : Char} {f : Text → Text} {t : Text} (h : mark ∉ t) :
    Text.replaceAll (pair? mark) f t = t := by
  have := Text.replaceAll_append (f := f) (pair?_looksFor mark) h []
  simpa using this

theorem startsComment_iff {t : Text} : startsComment t = true ↔
    ∃ rest, Text.trimStart t = ';' :: ';' :: rest ∧ '\n' ∉ rest := by
  unfold startsComment
  cases ha : (Text.trimStart t).after? [';', ';'] with
  | none =>
    refine ⟨fun h => by simp at h, ?_⟩
    rintro ⟨rest, ht, _⟩
    rw [Text.after?_eq_some_iff.mpr ht] at ha
    exact absurd ha (by simp)
  | some rest =>
    rw [Text.after?_eq_some_iff] at ha
    constructor
    · exact fun h => ⟨rest, ha, by simpa using h⟩
    · rintro ⟨rest', ht, hn⟩
      obtain rfl : rest = rest' := List.append_cancel_left (ha.symm.trans ht)
      simpa using hn

theorem startsComment_head {c : Char} {r : Text} (h : startsComment (c :: r) = true) :
    Text.isSpace c = true ∨ c = ';' := by
  obtain ⟨rest, ht, _⟩ := startsComment_iff.mp h
  cases hs : Text.isSpace c with
  | true => exact .inl rfl
  | false =>
    rw [Text.trimStart_eq_self_of_head hs] at ht
    exact .inr (List.cons.inj ht).1

theorem dropComment_append {w : Text} (hw : ∀ c ∈ w, Text.isSpace c = false ∧ c ≠ ';') (t : Text) :
    dropComment (w ++ t) = w ++ dropComment t := by
  induction w with
  | nil => rfl
  | cons c w ih =>
    obtain ⟨hc, hw⟩ := List.forall_mem_cons.mp hw
    have hs : startsComment (c :: (w ++ t)) ≠ true := by
      intro h
      rcases startsComment_head h with hsp | he
      · exact Bool.noConfusion (hc.1.symm.trans hsp)
      · exact hc.2 he
    rw [List.cons_append, dropComment, if_neg hs, ih hw, List.cons_append]

theorem dropComment_prefix (t : Text) :
    ∃ rest, t = dropComment t ++ rest ∧
      (rest = [] ∨ ∃ c r, rest = c :: r ∧ startsComment (c :: r) = true) := by
  induction t with
  | nil => exact ⟨[], rfl, .inl rfl⟩
  | cons c r ih =>
    by_cases hs : startsComment (c :: r) = true
    · refine ⟨c :: r, ?_, .inr ⟨c, r, rfl, hs⟩⟩
      rw [dropComment, if_pos hs, List.nil_append]
    · obtain ⟨rest, hr, hrest⟩ := ih
      refine ⟨rest, ?_, hrest⟩
      rw [dropComment, if_neg hs, List.cons_append, ← hr]

theorem dropComment_eq_self {t : Text} (h : ';' ∉ t) : dropComment t = t := by
  obtain ⟨rest, ht, rfl | ⟨c, r, rfl, hs⟩⟩ := dropComment_prefix t
  · rw [List.append_nil] at ht
    exact ht.symm
  · obtain ⟨rest, hr, _⟩ := startsComment_iff.mp hs
    have hm : ';' ∈ Text.trimStart (c :: r) := by rw [hr]; exact List.mem_cons_self
    have hcr : ';' ∈ c :: r := (List.dropWhile_sublist _).subset hm
    exact absurd (by rw [ht]; exact List.mem_append_right _ hcr) h

/-- The number signs that make a heading. -/
def headingMarks (t : Text) : Text := (Text.trimStart t).takeWhile (· = '#')

def headingTitle (t : Text) : Text := Text.trimStart ((Text.trimStart t).dropWhile (· = '#'))

def headingLevel (t : Text) : Text := 'h' :: Text.ofNat (headingMarks t).length

def openHeading (t : Text) : Text := ['<'] ++ headingLevel t ++ ['>']

def closeHeading (t : Text) : Text := ['<', '/'] ++ headingLevel t ++ ['>']

theorem wrapHeading_of_plain {t : Text} (h : headingMarks t = [] ∨ '\n' ∈ headingTitle t) :
    wrapHeading t = t := by
  rw [headingMarks, headingTitle] at h
  rw [wrapHeading]
  apply if_pos
  simpa using h

theorem wrapHeading_of_marks {t : Text} (hm : headingMarks t ≠ []) (hn : '\n' ∉ headingTitle t) :
    wrapHeading t = openHeading t ++ headingTitle t ++ closeHeading t := by
  have hc : ¬ ((headingMarks t).isEmpty || (headingTitle t).contains '\n') = true := by
    simp [hm, hn]
  rw [headingMarks, headingTitle] at hc
  simp only [wrapHeading, if_neg hc, openHeading, closeHeading, headingLevel, headingMarks,
    headingTitle, List.append_assoc]

theorem headingTitle_sublist (t : Text) : (headingTitle t).Sublist t :=
  ((List.dropWhile_sublist _).trans (List.dropWhile_sublist _)).trans (List.dropWhile_sublist _)

theorem toNat_of_mem_headingLevel {t : Text} {c : Char} (hc : c ∈ headingLevel t) :
    0x30 ≤ c.toNat ∧ c.toNat < 0x80 := by
  rcases List.mem_cons.mp hc with rfl | hc
  · decide
  · have hd := Char.isDigit_iff_toNat.mp (Nat.isDigit_of_mem_toDigits (by decide) (by decide) hc)
    exact ⟨hd.1, Nat.lt_of_le_of_lt hd.2 (by decide)⟩

theorem toNat_openHeading (t : Text) : ∀ c ∈ openHeading t, 0x30 ≤ c.toNat ∧ c.toNat < 0x80 := by
  intro c hc
  simp only [openHeading, List.mem_append, List.mem_singleton] at hc
  rcases hc with (rfl | hc) | rfl
  · decide
  · exact toNat_of_mem_headingLevel hc
  · decide

theorem toNat_closeHeading (t : Text) : ∀ c ∈ closeHeading t, 0x2F ≤ c.toNat ∧ c.toNat < 0x80 := by
  intro c hc
  simp only [closeHeading, List.mem_append, List.mem_cons, List.not_mem_nil, or_false] at hc
  rcases hc with ((rfl | rfl) | hc) | rfl
  · decide
  · decide
  · have := toNat_of_mem_headingLevel hc
    omega
  · decide

theorem wrapHeading_eq_self {t : Text} (h : '#' ∉ t) : wrapHeading t = t := by
  apply wrapHeading_of_plain
  left
  rw [List.eq_nil_iff_forall_not_mem]
  intro c hc
  have hp := List.all_eq_true.mp (List.all_takeWhile) c hc
  have ht : c ∈ t := (List.dropWhile_sublist _).subset (List.takeWhile_subset _ hc)
  exact h (of_decide_eq_true hp ▸ ht)

end LineMarkup.Inline
