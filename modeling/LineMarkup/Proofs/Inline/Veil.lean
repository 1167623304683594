import LineMarkup.Proofs.Escape.Marked
import LineMarkup.Proofs.Inline.Site

/-!
Veils: substitutions of texts for characters that no rule looks for. Emphasis and headings come out
the same whether they are made before such a substitution or after it. Links do so too, unless a
parenthesis that the substitution brings in ends a target.
-/

namespace LineMarkup.Inline

set_option autoImplicit false

open Text (Keeps)

/-- No rule looks for a neutral character and none writes it: it is beyond ASCII, no white space, and
not reserved for escapes. -/
def isNeutral (c : Char) : Bool :=
  Nat.ble 0x80 c.toNat && !Text.isSpace c && !Escape.isReserved c

theorem isNeutral_iff {c : Char} : isNeutral c = true ↔
    0x80 ≤ c.toNat ∧ Text.isSpace c = false ∧ Escape.isReserved c = false := by
  simp [isNeutral, and_assoc]

theorem isNeutral_of_ascii {c : Char} (h : c.toNat < 0x80) : isNeutral c = false := by
  rw [Bool.eq_false_iff]
  intro hc
  have := (isNeutral_iff.mp hc).1
  omega

theorem isNeutral_of_isSpace {c : Char} (h : Text.isSpace c = true) : isNeutral c = false := by
  simp [isNeutral, h]

theorem isNeutral_of_isReserved {c : Char} (h : Escape.isReserved c = true) :
    isNeutral c = false := by
  simp [isNeutral, h]

theorem ne_of_dark {c d : Char} (hd : 0x80 ≤ d.toNat) (hc : c.toNat < 0x80) : d ≠ c := by
  rintro rfl
  omega

theorem hidden_of_dark {d : Char} (hd : 0x80 ≤ d.toNat) :
    d ≠ '*' ∧ d ≠ '[' ∧ d ≠ ']' ∧ d ≠ '\n' :=
  ⟨ne_of_dark hd (by decide), ne_of_dark hd (by decide), ne_of_dark hd (by decide),
    ne_of_dark hd (by decide)⟩

theorem head_of_dark {d : Char} (hd : 0x80 ≤ d.toNat) : d ≠ '(' ∧ d ≠ ')' ∧ d ≠ '#' :=
  ⟨ne_of_dark hd (by decide), ne_of_dark hd (by decide), ne_of_dark hd (by decide)⟩

structure Veil (φ : Char → Text) : Prop where
  keeps : ∀ c, isNeutral c = false → φ c = [c]
  hides : ∀ c, isNeutral c = true → ∀ d ∈ φ c, d ≠ '*' ∧ d ≠ '[' ∧ d ≠ ']' ∧ d ≠ '\n'
  head : ∀ c, isNeutral c = true →
    ∃ d r, φ c = d :: r ∧ d ≠ '(' ∧ d ≠ ')' ∧ d ≠ '#' ∧ Text.isSpace d = false

theorem keeps_of_isNeutral {φ : Char → Text} {stop : Char}
    (keeps : ∀ c, isNeutral c = false → φ c = [c]) (hs : isNeutral stop = false)
    (apart : ∀ c, isNeutral c = true → stop ∉ φ c) : Keeps φ stop := by
  refine ⟨keeps stop hs, ?_⟩
  intro c hc
  cases hn : isNeutral c with
  | true => exact apart c hn
  | false =>
    rw [keeps c hn, List.mem_singleton]
    exact Ne.symm hc

theorem replaceAll_pair_flatMap {φ : Char → Text} {mark : Char} (hm : Keeps φ mark)
    {f : Text → Text} (hf : ∀ x, f (x.flatMap φ) = (f x).flatMap φ) (t : Text) :
    Text.replaceAll (pair? mark) f (t.flatMap φ) =
      (Text.replaceAll (pair? mark) f t).flatMap φ := by
  induction t using Text.scan_induction (pair? mark) with
  | nil => rfl
  | plain c r hs ih =>
    rw [Text.replaceAll_plain hs, List.flatMap_cons, List.flatMap_cons, ← ih]
    by_cases hc : c = mark
    · rw [hc] at hs ⊢
      have hr : mark ∉ r.flatMap φ := hm.not_mem_flatMap (pair?_eq_none_iff.mp hs)
      rw [hm.same, List.singleton_append, Text.replaceAll_plain (pair?_eq_none_iff.mpr hr)]
      rfl
    · exact Text.replaceAll_append (pair?_looksFor mark) (hm.apart c hc) _
  | found c r inner n hs ih =>
    rw [Text.replaceAll_found hs, List.flatMap_append]
    obtain ⟨rfl, rfl, hi, rest, rfl⟩ := pair?_eq_some_iff.mp hs
    rw [drop_pair] at ih ⊢
    have he : (c :: (inner ++ c :: rest)).flatMap φ =
        c :: (inner.flatMap φ ++ c :: rest.flatMap φ) := by
      simp [hm.same]
    have hp : pair? c (c :: (inner.flatMap φ ++ c :: rest.flatMap φ)) =
        some (inner.flatMap φ, (inner.flatMap φ).length + 1) :=
      pair?_eq_some_iff.mpr ⟨rfl, rfl, hm.not_mem_flatMap hi, _, rfl⟩
    rw [he, Text.replaceAll_found hp, drop_pair, hf, ih]

namespace Veil
variable {φ : Char → Text} (hφ : Veil φ)
include hφ

theorem flatMap_ascii {t : Text} (h : ∀ c ∈ t, c.toNat < 0x80) : t.flatMap φ = t :=
  Text.flatMap_eq_self fun c hc => hφ.keeps c (isNeutral_of_ascii (h c hc))

theorem star : Keeps φ '*' :=
  keeps_of_isNeutral hφ.keeps (by decide) fun c hc hm => (hφ.hides c hc _ hm).1 rfl

theorem bracket : Keeps φ ']' :=
  keeps_of_isNeutral hφ.keeps (by decide) fun c hc hm => (hφ.hides c hc _ hm).2.2.1 rfl

theorem newline : Keeps φ '\n' :=
  keeps_of_isNeutral hφ.keeps (by decide) fun c hc hm => (hφ.hides c hc _ hm).2.2.2 rfl

theorem opening : Keeps φ '[' :=
  keeps_of_isNeutral hφ.keeps (by decide) fun c hc hm => (hφ.hides c hc _ hm).2.1 rfl

theorem paren : φ ')' = [')'] := hφ.keeps ')' (by decide)

theorem ne_nil (c : Char) : φ c ≠ [] := by
  cases hc : isNeutral c with
  | true =>
    obtain ⟨d, r, hd, _⟩ := hφ.head c hc
    rw [hd]
    exact List.cons_ne_nil d r
  | false =>
    rw [hφ.keeps c hc]
    exact List.cons_ne_nil c []

theorem flatMap_ne_nil {t : Text} : t.flatMap φ ≠ [] ↔ t ≠ [] := by
  cases t with
  | nil => simp
  | cons c r => simp [hφ.ne_nil c]

theorem flatMap_between {a b : Text} (ha : ∀ d ∈ a, d.toNat < 0x80)
    (hb : ∀ d ∈ b, d.toNat < 0x80) (x : Text) :
    (a ++ x ++ b).flatMap φ = a ++ x.flatMap φ ++ b := by
  rw [List.flatMap_append, List.flatMap_append, hφ.flatMap_ascii ha, hφ.flatMap_ascii hb]

theorem emphasis (t : Text) :
    Rule.emphasis.apply (t.flatMap φ) = (Rule.emphasis.apply t).flatMap φ :=
  replaceAll_pair_flatMap hφ.star
    (fun x => (hφ.flatMap_between (by decide) (by decide) x).symm) t

theorem trimStart_flatMap (t : Text) :
    Text.trimStart (t.flatMap φ) = (Text.trimStart t).flatMap φ := by
  apply Text.dropWhile_flatMap
  · exact fun c hc => hφ.keeps c (isNeutral_of_isSpace hc)
  · intro c hc
    cases hn : isNeutral c with
    | true =>
      obtain ⟨d, r, hd, _, _, _, hs⟩ := hφ.head c hn
      exact ⟨d, r, hd, hs⟩
    | false => exact ⟨c, [], hφ.keeps c hn, hc⟩

theorem sign_apart {c : Char} (hc : decide (c = '#') = false) :
    ∃ d r, φ c = d :: r ∧ decide (d = '#') = false := by
  cases hn : isNeutral c with
  | true =>
    obtain ⟨d, r, hd, _, _, hs, _⟩ := hφ.head c hn
    exact ⟨d, r, hd, decide_eq_false hs⟩
  | false => exact ⟨c, [], hφ.keeps c hn, hc⟩

theorem sign_same {c : Char} (hc : decide (c = '#') = true) : φ c = [c] := by
  rw [of_decide_eq_true hc]
  exact hφ.keeps '#' (by decide)

theorem headingMarks_flatMap (t : Text) : headingMarks (t.flatMap φ) = headingMarks t := by
  rw [headingMarks, hφ.trimStart_flatMap]
  exact Text.takeWhile_flatMap (fun c => hφ.sign_same) (fun c => hφ.sign_apart) _

theorem headingTitle_flatMap (t : Text) :
    headingTitle (t.flatMap φ) = (headingTitle t).flatMap φ := by
  rw [headingTitle, hφ.trimStart_flatMap,
    Text.dropWhile_flatMap (fun c => hφ.sign_same) (fun c => hφ.sign_apart), hφ.trimStart_flatMap]
  rfl

theorem heading (t : Text) :
    Rule.heading.apply (t.flatMap φ) = (Rule.heading.apply t).flatMap φ := by
  have hmem : '\n' ∈ headingTitle (t.flatMap φ) ↔ '\n' ∈ headingTitle t := by
    rw [hφ.headingTitle_flatMap, hφ.newline.mem_flatMap]
  by_cases hp : headingMarks t = [] ∨ '\n' ∈ headingTitle t
  · have hp' : headingMarks (t.flatMap φ) = [] ∨ '\n' ∈ headingTitle (t.flatMap φ) := by
      rwa [hφ.headingMarks_flatMap, hmem]
    rw [Rule.apply, wrapHeading_of_plain hp, wrapHeading_of_plain hp']
  · obtain ⟨hm, hn⟩ := not_or.mp hp
    have hl : headingLevel (t.flatMap φ) = headingLevel t := by
      rw [headingLevel, headingLevel, hφ.headingMarks_flatMap]
    rw [Rule.apply, wrapHeading_of_marks hm hn, wrapHeading_of_marks
      (by rwa [hφ.headingMarks_flatMap]) (by rwa [hmem]), hφ.headingTitle_flatMap,
      List.flatMap_append, List.flatMap_append,
      hφ.flatMap_ascii fun c hc => (toNat_openHeading t c hc).2,
      hφ.flatMap_ascii fun c hc => (toNat_closeHeading t c hc).2]
    rw [openHeading, openHeading, closeHeading, closeHeading, hl]

theorem flatMap_between₂ {a b c : Text} (ha : ∀ d ∈ a, d.toNat < 0x80)
    (hb : ∀ d ∈ b, d.toNat < 0x80) (hc : ∀ d ∈ c, d.toNat < 0x80) (x y : Text) :
    (a ++ x ++ b ++ y ++ c).flatMap φ = a ++ x.flatMap φ ++ b ++ y.flatMap φ ++ c := by
  rw [List.flatMap_append, List.flatMap_append, hφ.flatMap_between ha hb, hφ.flatMap_ascii hc]

theorem link_html (l : Link) :
    l.html.flatMap φ = Link.html ⟨l.label.flatMap φ, l.target.flatMap φ⟩ :=
  hφ.flatMap_between₂ (by decide) (by decide) (by decide) l.target l.label

theorem opens_flatMap {t label rest : Text} (h : Opens t label rest) :
    Opens (t.flatMap φ) (label.flatMap φ) (rest.flatMap φ) := by
  obtain ⟨rfl, hl, hb⟩ := h
  refine ⟨?_, hφ.flatMap_ne_nil.mpr hl, hφ.bracket.not_mem_flatMap hb⟩
  rw [List.flatMap_cons, List.flatMap_append, List.flatMap_cons, List.flatMap_cons,
    hφ.opening.same, hφ.bracket.same, hφ.keeps '(' (by decide)]
  rfl

theorem opens_of_flatMap {r label' rest' : Text} (h : Opens ('[' :: r.flatMap φ) label' rest') :
    ∃ label rest, Opens ('[' :: r) label rest ∧ label.flatMap φ = label' ∧
      rest.flatMap φ = rest' := by
  obtain ⟨ht, hl, hb⟩ := h
  obtain ⟨u, v, rfl, hu, hv⟩ := hφ.bracket.split (List.cons.inj ht).2
  cases v with
  | nil => simp at hv
  | cons d w =>
    rw [List.flatMap_cons] at hv
    cases hn : isNeutral d with
    | true =>
      obtain ⟨e, s, he, hp, _⟩ := hφ.head d hn
      rw [he] at hv
      exact absurd (List.cons.inj hv).1 hp
    | false =>
      rw [hφ.keeps d hn] at hv
      obtain ⟨rfl, hw⟩ := List.cons.inj hv
      refine ⟨u, w, ⟨rfl, ?_, ?_⟩, hu, hw⟩
      · exact hφ.flatMap_ne_nil.mp (hu ▸ hl)
      · exact fun hm => hb (hu ▸ hφ.bracket.mem_flatMap.mpr hm)

end Veil

/-- If a link opens here, then no text that stands for a character holds a parenthesis that ends its
target early. -/
def KeepsTarget (φ : Char → Text) (t : Text) : Prop :=
  ∀ label rest, Opens t label rest → ∀ c ∈ rest.takeWhile (· ≠ ')'), ')' ∉ φ c

namespace Veil
variable {φ : Char → Text} (hφ : Veil φ)
include hφ

theorem cut_target {t label rest : Text} (hk : KeepsTarget φ t) (h : Opens t label rest) :
    Text.cut ')' (rest.flatMap φ) =
      (Text.cut ')' rest).map fun p => (p.1.flatMap φ, p.2.flatMap φ) :=
  Text.cut_flatMap hφ.paren (hk label rest h)

theorem link_plain {c : Char} {r : Text} (hk : KeepsTarget φ (c :: r))
    (hs : link? (c :: r) = none) :
    Rule.link.apply ((c :: r).flatMap φ) = φ c ++ Rule.link.apply (r.flatMap φ) := by
  by_cases hc : c = '['
  · subst hc
    have hn : link? ('[' :: r.flatMap φ) = none := by
      cases hl : link? ('[' :: r.flatMap φ) with
      | none => rfl
      | some p =>
        obtain ⟨_, hne, hp, after, ho⟩ := link?_eq_some_iff.mp hl
        obtain ⟨label, rest, ho, _, hrest⟩ := hφ.opens_of_flatMap ho
        have hcut := hφ.cut_target hk ho
        rw [hrest, Text.cut_eq_some_iff.mpr ⟨rfl, hp⟩] at hcut
        obtain ⟨⟨target, tail⟩, ht, he⟩ := Option.map_eq_some_iff.mp hcut.symm
        obtain ⟨rfl, hpt⟩ := Text.cut_eq_some_iff.mp ht
        have htn : target ≠ [] := hφ.flatMap_ne_nil.mp ((Prod.mk.inj he).1 ▸ hne)
        have hsome := (link?_eq_some_iff (l := ⟨label, target⟩)).mpr ⟨rfl, htn, hpt, tail, ho⟩
        rw [hs] at hsome
        exact absurd hsome (by simp)
    rw [List.flatMap_cons, hφ.opening.same, List.singleton_append, List.singleton_append]
    exact apply_link_plain hn
  · rw [List.flatMap_cons]
    exact Text.replaceAll_append link?_looksFor (hφ.opening.apart c hc) _

theorem link_found {c : Char} {r : Text} {l : Link} {n : Nat} (hk : KeepsTarget φ (c :: r))
    (hs : link? (c :: r) = some (l, n)) :
    Rule.link.apply ((c :: r).flatMap φ) =
      l.html.flatMap φ ++ Rule.link.apply ((r.drop n).flatMap φ) := by
  obtain ⟨rfl, hne, hp, rest, ho⟩ := link?_eq_some_iff.mp hs
  have hcut := hφ.cut_target hk ho
  rw [Text.cut_eq_some_iff.mpr ⟨rfl, hp⟩, Option.map_some, Text.cut_eq_some_iff] at hcut
  have ho' := hφ.opens_flatMap ho
  rw [hcut.1] at ho'
  rw [ho'.apply_link (hφ.flatMap_ne_nil.mpr hne) hcut.2, ho.drop_link, hφ.link_html]

/-- Links come out the same if no target is ended early at any place where one is looked for. -/
theorem link {t : Text} (hk : ∀ u ∈ Text.places link? t, KeepsTarget φ u) :
    Rule.link.apply (t.flatMap φ) = (Rule.link.apply t).flatMap φ := by
  induction t using Text.scan_induction link? with
  | nil => rfl
  | plain c r hs ih =>
    rw [Text.places_plain hs, List.forall_mem_cons] at hk
    rw [hφ.link_plain hk.1 hs, ih hk.2, apply_link_plain hs, List.flatMap_cons]
  | found c r l n hs ih =>
    rw [Text.places_found hs, List.forall_mem_cons] at hk
    rw [hφ.link_found hk.1 hs, ih hk.2, apply_link_found hs, List.flatMap_append]

end Veil

end LineMarkup.Inline
