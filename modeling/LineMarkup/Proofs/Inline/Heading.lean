import LineMarkup.Proofs.Inline.Presence

/-!
Headings. What sets a heading apart from other lines is read off the line itself, while the rule for
headings sees what escapes and the other rules have left of it. The two agree: nothing that happens in
between brings a number sign to the front of a line, takes one away from there or touches the ones that
are there, so that a heading is its level around what the other rules make of the rest of the line.
-/

namespace LineMarkup.Inline

set_option autoImplicit false

open Escape (Marked isReserved shieldEscapes unshield)

/-- White space, as many number signs as the level says, and a rest that starts with no further one. -/
def IsHeading (line : Text) (level : Nat) (rest : Text) : Prop :=
  ∃ ws : Text, (∀ c ∈ ws, Text.isSpace c = true) ∧ line = ws ++ (List.replicate level '#' ++ rest) ∧
    0 < level ∧ rest.head? ≠ some '#'

/-- The rules that run before the one for headings. -/
def markup (t : Text) : Text :=
  [Rule.comment, .codeSpan, .emphasis, .link].foldl (fun t rule => rule.apply t) t

def levelTag (lead : Text) (level : Nat) : Text := lead ++ Text.ofNat level ++ ['>']

def headingHtml (level : Nat) (title : Text) : Text :=
  levelTag "<h".toList level ++ title ++ levelTag "</h".toList level

variable {t line rest : Text} {level : Nat}

theorem convert_eq_wrapHeading (line : Text) :
    convert line = unshield (wrapHeading (markup (shieldEscapes line))) := by
  simp only [convert, markup, Rule.all, List.foldl_cons, List.foldl_nil]
  rfl

namespace IsHeading

theorem trimStart (h : IsHeading line level rest) :
    Text.trimStart line = List.replicate level '#' ++ rest := by
  obtain ⟨ws, hws, rfl, hlevel, -⟩ := h
  apply Text.dropWhile_append_of_head hws
  obtain ⟨n, rfl⟩ := Nat.exists_eq_add_one.mpr hlevel
  rintro c ⟨rfl⟩
  decide

theorem sign (h : IsHeading line level rest) : (Text.trimStart line).head? = some '#' := by
  rw [h.trimStart]
  obtain ⟨ws, -, -, hlevel, -⟩ := h
  obtain ⟨n, rfl⟩ := Nat.exists_eq_add_one.mpr hlevel
  rfl

/-- The rest of a heading is what follows its number signs. -/
theorem rest_head (h : IsHeading line level rest) :
    ∀ c, rest.head? = some c → decide (c = '#') = false := by
  obtain ⟨ws, -, -, -, hrest⟩ := h
  intro c hc
  exact decide_eq_false fun he => hrest (he ▸ hc)

theorem headingMarks (h : IsHeading line level rest) :
    headingMarks line = List.replicate level '#' := by
  rw [Inline.headingMarks, h.trimStart]
  exact Text.takeWhile_append_of_head
    (fun c hc => decide_eq_true (List.eq_of_mem_replicate hc)) h.rest_head

theorem headingTitle (h : IsHeading line level rest) : headingTitle line = Text.trimStart rest := by
  rw [Inline.headingTitle, h.trimStart, Text.dropWhile_append_of_head
    (fun c hc => decide_eq_true (List.eq_of_mem_replicate hc)) h.rest_head]

theorem wrapHeading (h : IsHeading line level rest) (hn : '\n' ∉ line) :
    wrapHeading line = headingHtml level (Text.trimStart rest) := by
  have hmarks : Inline.headingMarks line ≠ [] := by
    rw [h.headingMarks]
    obtain ⟨ws, -, -, hlevel, -⟩ := h
    simp [Nat.ne_of_gt hlevel]
  have hlevel : headingLevel line = 'h' :: Text.ofNat level := by
    rw [headingLevel, h.headingMarks, List.length_replicate]
  rw [wrapHeading_of_marks hmarks fun hm => hn ((headingTitle_sublist line).subset hm), openHeading,
    closeHeading, hlevel, h.headingTitle, headingHtml, levelTag, levelTag]
  simp

end IsHeading

/-- A text has number signs to make a heading if there is one at its front, but for white space. -/
theorem headingMarks_eq_nil_iff : headingMarks t = [] ↔ (Text.trimStart t).head? ≠ some '#' := by
  rw [headingMarks]
  cases Text.trimStart t with
  | nil => simp
  | cons c r => by_cases hc : c = '#' <;> simp [hc]

theorem exists_isHeading (h : (Text.trimStart line).head? = some '#') :
    ∃ level rest, IsHeading line level rest := by
  have hsigns : headingMarks line ≠ [] := fun hnil => headingMarks_eq_nil_iff.mp hnil h
  have hreplicate : headingMarks line = List.replicate (headingMarks line).length '#' :=
    List.eq_replicate_of_mem fun c hc =>
      of_decide_eq_true (List.all_eq_true.mp List.all_takeWhile c hc)
  refine ⟨(headingMarks line).length, (Text.trimStart line).dropWhile (· = '#'),
    line.takeWhile Text.isSpace, List.all_eq_true.mp List.all_takeWhile, ?_,
    List.length_pos_iff.mpr hsigns, ?_⟩
  · rw [← hreplicate, headingMarks, List.takeWhile_append_dropWhile, Text.trimStart,
      List.takeWhile_append_dropWhile]
  · intro hhead
    have hno := Text.forall_head?_dropWhile (· = '#') (Text.trimStart line) '#' hhead
    exact absurd hno (by decide)

/-- A line is a heading by its kind if it has the form of one. -/
theorem marker?_eq_heading_iff :
    Line.marker? line = some .heading ↔ (Text.trimStart line).head? = some '#' := by
  constructor
  · intro h
    have hfind : Marker.all.find? (fun m => m.fits (Text.trim line)) = some .heading := h
    have hfits : Marker.heading.fits (Text.trim line) = true := (List.find?_some hfind :)
    obtain ⟨r, hr⟩ := Option.isSome_iff_exists.mp hfits
    have htrim : Text.trim line = '#' :: r := Text.after?_eq_some_iff.mp hr
    obtain ⟨x, c, y, rfl, hx, hc⟩ := Text.exists_of_trim_ne_nil (t := line) (by simp [htrim])
    rw [Text.trim_append_cons hx hc, List.cons.injEq] at htrim
    rw [Text.trimStart, Text.dropWhile_append_of_head hx (by simpa using hc), htrim.1]
    rfl
  · intro h
    obtain ⟨r, hr⟩ : ∃ r, Text.trimStart line = '#' :: r := by
      cases ht : Text.trimStart line with
      | nil => simp [ht] at h
      | cons c r => exact ⟨r, by simpa [ht] using h⟩
    have htrim : Text.trim line = '#' :: Text.trimEnd r := by
      rw [Text.trim, hr, Text.trimEnd_cons (by decide)]
    rw [Line.marker?, Marker.find?, htrim]
    simp [Marker.all, Marker.fits, Marker.lead, Text.startsWith, Text.after?]

/-- A step that goes through white space and number signs at the front of a text as they are, and brings
neither to the front. -/
structure KeepsLead (f : Text → Text) : Prop where
  nil : f [] = []
  append : ∀ w t : Text, (∀ c ∈ w, Text.isSpace c = true ∨ c = '#') → f (w ++ t) = w ++ f t
  cons : ∀ c r, ∃ d s, f (c :: r) = d :: s ∧ (d = c ∨ Text.isSpace d = false ∧ d ≠ '#')

section
variable {f : Text → Text} {p : Char → Bool} (hp : ∀ c, p c = true → Text.isSpace c = true)
include hp

/-- The number sign that stands first, after characters of a kind of white space, stood there before. -/
theorem KeepsLead.sign (h : KeepsLead f) (hs : ((f t).dropWhile p).head? = some '#') :
    (t.dropWhile p).head? = some '#' := by
  have hw : ∀ c ∈ t.takeWhile p, p c = true := List.all_eq_true.mp List.all_takeWhile
  have hf : f t = t.takeWhile p ++ f (t.dropWhile p) := by
    rw [← h.append _ _ fun c hc => Or.inl (hp c (hw c hc)), List.takeWhile_append_dropWhile]
  rw [hf, List.dropWhile_append_of_pos hw] at hs
  have hfirst := Text.forall_head?_dropWhile p t
  cases hd : t.dropWhile p with
  | nil =>
    rw [hd, h.nil] at hs
    exact absurd hs (by simp)
  | cons c r =>
    rw [hd] at hfirst
    obtain ⟨d, s, hds, hcases⟩ := h.cons c r
    have hpd : p d = false := by
      rcases hcases with rfl | ⟨hspace, _⟩
      · exact hfirst d rfl
      · exact Bool.eq_false_iff.mpr fun hpd => Bool.noConfusion (hspace.symm.trans (hp d hpd))
    rw [hd, hds, List.dropWhile_cons_of_neg (by simp [hpd]), List.head?_cons] at hs
    rcases hcases with rfl | ⟨_, hne⟩
    · exact hs
    · exact absurd (Option.some.inj hs) hne

end

theorem dropComment_sign {p : Char → Bool}
    (hs : ((dropComment t).dropWhile p).head? = some '#') :
    (t.dropWhile p).head? = some '#' := by
  obtain ⟨rest, ht, _⟩ := dropComment_prefix t
  obtain ⟨r, hr⟩ : ∃ r, (dropComment t).dropWhile p = '#' :: r := by
    cases hd : (dropComment t).dropWhile p with
    | nil => simp [hd] at hs
    | cons c r => exact ⟨r, by simpa [hd] using hs⟩
  have hne : (dropComment t).dropWhile p ≠ [] := by simp [hr]
  rw [ht, List.dropWhile_append, if_neg (by simpa using hne), hr]
  rfl

theorem keepsLead_shieldEscapes : KeepsLead shieldEscapes where
  nil := rfl
  append w t hw := by
    induction w with
    | nil => rfl
    | cons c w ih =>
      obtain ⟨hc, hw⟩ := List.forall_mem_cons.mp hw
      have hone : ∀ r, shieldEscapes (c :: r) = c :: shieldEscapes r := by
        intro r
        rcases hc with hc | rfl
        · have hplain : ∀ d ∈ [c], d ≠ '\\' ∧ isReserved d = false ∧ Escape.tokens.contains d = false := by
            intro d hd
            rw [List.mem_singleton.mp hd]
            exact plain_of_isSpace hc
          exact Escape.shieldEscapes_append hplain r
        · rfl
      rw [List.cons_append, hone, ih hw, List.cons_append]
  cons c r := by
    obtain ⟨d, s, hs, hd⟩ := Escape.shieldEscapes_head c r
    refine ⟨d, s, hs, ?_⟩
    rcases hd with rfl | hd | rfl
    · exact Or.inr (by decide)
    · exact Or.inr ⟨(dark_of_isReserved hd).2, fun he => absurd hd (by rw [he]; decide)⟩
    · exact Or.inl rfl

/-- A rule that looks for a character other than a number sign and writes tags. -/
theorem keepsLead_replaceAll {α : Type} {site : Text.Site α} {write : α → Text} {first : Char}
    (hl : Text.LooksFor site first) (hspace : Text.isSpace first = false) (hsign : first ≠ '#')
    (hw : ∀ a, ∃ s, write a = '<' :: s) : KeepsLead (Text.replaceAll site write) where
  nil := rfl
  append w t hlead := by
    apply Text.replaceAll_append hl
    intro hm
    rcases hlead first hm with hs | he
    · exact Bool.noConfusion (hspace.symm.trans hs)
    · exact hsign he
  cons c r := by
    cases hs : site (c :: r) with
    | none => exact ⟨c, _, Text.replaceAll_plain hs, Or.inl rfl⟩
    | some found =>
      obtain ⟨s, hwrite⟩ := hw found.1
      refine ⟨'<', s ++ Text.replaceAll site write (r.drop found.2), ?_, Or.inr (by decide)⟩
      rw [Text.replaceAll_found (n := found.2) hs, hwrite]
      rfl

theorem keepsLead_codeSpan : KeepsLead Rule.codeSpan.apply :=
  keepsLead_replaceAll (pair?_looksFor _) (by decide) (by decide) fun _ => ⟨_, rfl⟩

theorem keepsLead_emphasis : KeepsLead Rule.emphasis.apply :=
  keepsLead_replaceAll (pair?_looksFor _) (by decide) (by decide) fun _ => ⟨_, rfl⟩

theorem keepsLead_link : KeepsLead Rule.link.apply :=
  keepsLead_replaceAll link?_looksFor (by decide) (by decide) fun _ => ⟨_, rfl⟩

theorem markup_eq (t : Text) :
    markup t = Rule.link.apply (Rule.emphasis.apply (Rule.codeSpan.apply (dropComment t))) := rfl

theorem markup_sign {p : Char → Bool} (hp : ∀ c, p c = true → Text.isSpace c = true)
    (h : ((markup (shieldEscapes t)).dropWhile p).head? = some '#') :
    (t.dropWhile p).head? = some '#' := by
  rw [markup_eq] at h
  exact keepsLead_shieldEscapes.sign hp (dropComment_sign (keepsLead_codeSpan.sign hp
    (keepsLead_emphasis.sign hp (keepsLead_link.sign hp h))))

/-- A comment does not reach back over a number sign. -/
theorem dropComment_append_sign {ws : Text} (hws : ∀ c ∈ ws, Text.isSpace c = true) (t : Text) :
    dropComment (ws ++ '#' :: t) = ws ++ '#' :: dropComment t := by
  have hstart : ∀ w : Text, (∀ c ∈ w, Text.isSpace c = true) →
      startsComment (w ++ '#' :: t) = false := by
    intro w hw
    rw [Bool.eq_false_iff]
    intro hs
    obtain ⟨rest, hrest, _⟩ := startsComment_iff.mp hs
    rw [Text.trimStart, Text.dropWhile_append_of_head hw (by simp; decide)] at hrest
    exact absurd (List.cons.inj hrest).1 (by decide)
  induction ws with
  | nil =>
    have h := hstart [] (by simp)
    rw [List.nil_append] at h ⊢
    rw [dropComment, h]
    rfl
  | cons c ws ih =>
    have h := hstart (c :: ws) hws
    rw [List.cons_append] at h ⊢
    rw [dropComment, h, if_neg (by simp), ih (List.forall_mem_cons.mp hws).2]
    rfl

/-- Escapes and the rules before the one for headings leave a heading one of the same level. -/
theorem IsHeading.markup (h : IsHeading line level rest) :
    IsHeading (markup (shieldEscapes line)) level (markup (shieldEscapes rest)) := by
  obtain ⟨ws, hws, rfl, hlevel, hrest⟩ := h
  have hlead : ∀ c ∈ ws ++ List.replicate level '#', Text.isSpace c = true ∨ c = '#' := by
    intro c hc
    rcases List.mem_append.mp hc with hc | hc
    · exact Or.inl (hws c hc)
    · exact Or.inr (List.eq_of_mem_replicate hc)
  have hcomment : ∀ t : Text, dropComment (ws ++ List.replicate level '#' ++ t) =
      ws ++ List.replicate level '#' ++ dropComment t := by
    intro t
    obtain ⟨n, rfl⟩ := Nat.exists_eq_add_one.mpr hlevel
    have hsigns : dropComment (List.replicate n '#' ++ t) = List.replicate n '#' ++ dropComment t := by
      apply dropComment_append
      intro c hc
      rw [List.eq_of_mem_replicate hc]
      decide
    rw [List.replicate_succ, List.append_assoc, List.cons_append, dropComment_append_sign hws, hsigns,
      List.append_assoc]
    rfl
  refine ⟨ws, hws, ?_, hlevel, ?_⟩
  · rw [← List.append_assoc, ← List.append_assoc, keepsLead_shieldEscapes.append _ _ hlead, markup_eq,
      hcomment, keepsLead_codeSpan.append _ _ hlead, keepsLead_emphasis.append _ _ hlead,
      keepsLead_link.append _ _ hlead, markup_eq]
  · intro hsign
    have hnone : ∀ t : Text, t.dropWhile (fun _ => false) = t := by
      intro t
      cases t <;> rfl
    have h := markup_sign (t := rest) (p := fun _ => false) (by simp) (by rwa [hnone])
    rw [hnone] at h
    exact hrest h

theorem newline_not_mem_markup (h : '\n' ∉ line) : '\n' ∉ markup (shieldEscapes line) := by
  have hrules : ∀ (rules : List Rule) (t : Text), '\n' ∉ t →
      '\n' ∉ rules.foldl (fun t rule => rule.apply t) t := by
    intro rules
    induction rules with
    | nil => exact fun t ht => ht
    | cons rule rules ih => exact fun t ht => ih _ (rule.newline_not_mem_apply ht)
  exact hrules _ _ (Escape.newline_not_mem_shieldEscapes h)

theorem unshield_ascii {x : Text} (h : ∀ c ∈ x, c.toNat < 0x80) : unshield x = x := by
  induction x with
  | nil => rfl
  | cons c x ih =>
    obtain ⟨hc, hx⟩ := List.forall_mem_cons.mp h
    have hr : isReserved c = false :=
      Bool.eq_false_iff.mpr fun hr => absurd (dark_of_isReserved hr).1 (by omega)
    rw [Escape.unshield_cons (Escape.ne_literalMark hr), Escape.unshieldChar_eq_self hr, ih hx]

theorem toNat_levelTag {lead : Text} (h : ∀ c ∈ lead, c.toNat < 0x80) (level : Nat) :
    ∀ c ∈ levelTag lead level, c.toNat < 0x80 := by
  intro c hc
  rw [levelTag, List.mem_append, List.mem_append, List.mem_singleton] at hc
  rcases hc with (hc | hc) | rfl
  · exact h c hc
  · have hd := Char.isDigit_iff_toNat.mp (Nat.isDigit_of_mem_toDigits (by decide) (by decide) hc)
    exact Nat.lt_of_le_of_lt hd.2 (by decide)
  · decide

theorem unshield_headingHtml {title : Text} (h : Marked title) (level : Nat) :
    unshield (headingHtml level title) = headingHtml level (unshield title) := by
  have hopen : ∀ c ∈ levelTag "<h".toList level, c.toNat < 0x80 := toNat_levelTag (by decide) level
  have hclose : ∀ c ∈ levelTag "</h".toList level, c.toNat < 0x80 := toNat_levelTag (by decide) level
  rw [headingHtml, List.append_assoc, Escape.unshield_append (marked_of_ascii hopen),
    Escape.unshield_append h, unshield_ascii hopen, unshield_ascii hclose, headingHtml,
    List.append_assoc]

theorem IsHeading.convert (h : IsHeading line level rest) (hn : '\n' ∉ line) :
    convert line =
      headingHtml level (unshield (Text.trimStart (Inline.markup (shieldEscapes rest)))) := by
  have hmarked : Marked (Inline.markup (shieldEscapes rest)) :=
    marked_applyAll _ (Escape.marked_shieldEscapes rest)
  have htitle : Marked (Text.trimStart (Inline.markup (shieldEscapes rest))) :=
    marked_dropWhile (fun _ => isReserved_of_isSpace) hmarked
  rw [convert_eq_wrapHeading, h.markup.wrapHeading (newline_not_mem_markup hn),
    unshield_headingHtml htitle]

/-- The kind of a line and the rule for headings agree on which lines are headings, and the HTML of one is
that of its rest, with its level around. -/
theorem heading_agrees (h : '\n' ∉ line) :
    (Line.marker? line = some .heading ↔ ∃ level rest, IsHeading line level rest) ∧
    (∀ level rest, IsHeading line level rest → convert line =
      headingHtml level (unshield (Text.trimStart (markup (shieldEscapes rest))))) ∧
    (Line.marker? line ≠ some .heading →
      Rule.heading.apply (markup (shieldEscapes line)) = markup (shieldEscapes line)) := by
  refine ⟨marker?_eq_heading_iff.trans ⟨exists_isHeading, ?_⟩, fun _ _ hl => hl.convert h, ?_⟩
  · rintro ⟨level, rest, hl⟩
    exact hl.sign
  · intro hline
    apply wrapHeading_of_plain
    refine Or.inl (headingMarks_eq_nil_iff.mpr fun hsign => hline ?_)
    exact marker?_eq_heading_iff.mpr (markup_sign (fun _ hc => hc) hsign)

theorem heading_agrees_levelTwo :
    '\n' ∉ " ##*a* \\#b ;; c".toList ∧ Line.marker? " ##*a* \\#b ;; c".toList = some .heading ∧
      convert " ##*a* \\#b ;; c".toList = "<h2><em>a</em> #b</h2>".toList := by
  have hn : '\n' ∉ " ##*a* \\#b ;; c".toList := by decide
  have hl : IsHeading " ##*a* \\#b ;; c".toList 2 "*a* \\#b ;; c".toList :=
    ⟨[' '], by decide, by decide, by decide, by decide⟩
  refine ⟨hn, (heading_agrees hn).1.mpr ⟨2, _, hl⟩, ((heading_agrees hn).2.1 2 _ hl).trans ?_⟩
  decide +kernel

end LineMarkup.Inline
