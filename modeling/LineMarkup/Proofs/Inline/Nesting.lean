import LineMarkup.Proofs.Inline.Heading
import LineMarkup.Proofs.Inline.Words

/-!
Nesting of the tags that the rules write. Code spans and emphasis nest in one another. A link is put
around its label and takes its target into a tag, whatever the rules before have written there; so tags
cross if a label has taken only one of two tags, and a tag stands inside another if a target has taken
one. Nothing else goes wrong.
-/

namespace LineMarkup.Inline

set_option autoImplicit false

open Escape (Marked isReserved unshield)
open Text (Piece pieces)

/-- A line as the rule for links gets it. -/
def unlinked (line : Text) : Text := Rule.emphasis.apply (Rule.codeSpan.apply (uncommented line))

variable {opened opened' inner outer : List Text} {t w x y name line : Text}

theorem leads_em_iff : Leads opened (emphasisHtml x ++ y) opened' ↔
    ∃ inner, Leads ("em".toList :: opened) x ("em".toList :: inner) ∧ Leads inner y opened' := by
  have hem : emphasisHtml x = element "em".toList x := element_eq (by decide) (by decide) x
  rw [hem]
  exact leads_element_iff (by decide) (by decide) (by decide)

theorem leads_codeText (h : Clear (unshield x)) (opened : List Text) :
    Leads opened (codeText x) opened := by
  have hcode : codeText x = element "code".toList (unshield x) := element_eq (by decide) (by decide) _
  rw [hcode, ← List.append_nil (element _ _), leads_element_iff (by decide) (by decide) (by decide)]
  exact ⟨opened, leads_of_clear h _, rfl⟩

theorem unshield_between {a b : Text} (ha : ∀ c ∈ a, c.toNat < 0x80) (hb : ∀ c ∈ b, c.toNat < 0x80)
    (hx : Marked x) (y : Text) : unshield (a ++ x ++ b ++ y) = a ++ unshield x ++ b ++ unshield y := by
  have hma := marked_of_ascii ha
  rw [Escape.unshield_append ((hma.append hx).append (marked_of_ascii hb)),
    Escape.unshield_append (hma.append hx), Escape.unshield_append hma, unshield_ascii ha,
    unshield_ascii hb]

theorem leads_unreserved_iff (h : ∀ c ∈ x, isReserved c = false ∧ Clear [c]) (y : Text) :
    Leads opened (unshield (x ++ y)) opened' ↔ Leads opened (unshield y) opened' := by
  induction x with
  | nil => rfl
  | cons c x ih =>
    obtain ⟨⟨hr, hc⟩, hx⟩ := List.forall_mem_cons.mp h
    rw [List.cons_append, Escape.unshield_cons (Escape.ne_literalMark hr),
      Escape.unshieldChar_eq_self hr, leads_cons_iff hc, ih hx]

theorem Word.leads (h : Word [] w) (opened : List Text) : Leads opened (unshield w) opened := by
  cases h with
  | plain hc hclear =>
    rw [Escape.unshield_cons hc]
    exact leads_of_clear hclear opened
  | literal hc =>
    rw [Escape.unshield_literal]
    exact leads_of_clear (clear_of_differs hc rfl rfl) opened
  | code hm hclear =>
    rw [unshield_codeHtml hm]
    exact leads_codeText hclear opened
  | tag hw => exact absurd hw List.not_mem_nil

theorem Spanned.leads (h : Spanned [] t) (opened : List Text) : Leads opened (unshield t) opened := by
  induction h with
  | nil => rfl
  | cons hw _ ih =>
    rw [Escape.unshield_append (hw.marked (List.nil_subset _)), (hw.leads opened).append_iff]
    exact ih

/-- The rule for emphasis leaves tags nested: what stands between two stars is whole. -/
theorem spanned_emphasis (h : Spanned [] t) : Spanned emphasisTags (Rule.emphasis.apply t) ∧
    ∀ opened, Leads opened (unshield (Rule.emphasis.apply t)) opened := by
  have hl := pair?_looksFor '*'
  have hfirst : '*' ∈ hidden := by decide
  refine Spanned.scan_induction (List.nil_subset _) (pair? '*') hfirst
    (motive := fun t => Spanned emphasisTags (Rule.emphasis.apply t) ∧
      ∀ opened, Leads opened (unshield (Rule.emphasis.apply t)) opened) ?_ ?_ ?_ ?_ h
  · exact ⟨.nil, fun _ => rfl⟩
  · intro w t hw hm _ ih
    have happly : Rule.emphasis.apply (w ++ t) = w ++ Rule.emphasis.apply t :=
      Text.replaceAll_append hl hm t
    rw [happly]
    refine ⟨.cons hw.mono ih.1, fun opened => ?_⟩
    rw [Escape.unshield_append (hw.marked (List.nil_subset _)), (hw.leads opened).append_iff]
    exact ih.2 opened
  · intro t hs _ ih
    have happly : Rule.emphasis.apply ('*' :: t) = '*' :: Rule.emphasis.apply t :=
      Text.replaceAll_plain hs
    rw [happly]
    refine ⟨.cons (.plain (by decide) (by decide)) ih.1, fun opened => ?_⟩
    exact (leads_unreserved_iff (x := ['*']) (by decide) _).mpr (ih.2 opened)
  · intro t inner n hs ht ih
    have happly : Rule.emphasis.apply ('*' :: t) = emphasisHtml inner ++ Rule.emphasis.apply (t.drop n) :=
      Text.replaceAll_found hs
    obtain ⟨-, rfl, -, rest, rfl⟩ := pair?_eq_some_iff.mp hs
    rw [drop_pair] at ih happly
    have ht := (ht.split_hidden (x := []) (List.nil_subset _) hfirst).2
    obtain ⟨hinner, hrest⟩ := ht.split_hidden (List.nil_subset _) hfirst
    obtain ⟨hspanned, hleads⟩ := ih hrest
    have hm := hinner.marked (List.nil_subset _)
    rw [happly]
    constructor
    · exact .append (.append (.append (.singleton (.tag (by decide))) hinner.mono)
        (.singleton (.tag (by decide)))) hspanned
    · intro opened
      have hhtml := unshield_between (a := "<em>".toList) (b := "</em>".toList) (by decide) (by decide)
        hm (Rule.emphasis.apply rest)
      rw [emphasisHtml, hhtml, ← emphasisHtml, leads_em_iff]
      exact ⟨opened, hinner.leads _, hleads opened⟩

theorem Word.em_cases (h : Word emphasisTags w) :
    Word [] w ∨ w = "<em>".toList ∨ w = "</em>".toList := by
  cases h with
  | plain hc hclear => exact Or.inl (.plain hc hclear)
  | literal hc => exact Or.inl (.literal hc)
  | code hm hclear => exact Or.inl (.code hm hclear)
  | tag hw => exact Or.inr (by simpa [emphasisTags] using hw)

theorem leads_em (opened : List Text) : Leads opened "<em>".toList ("em".toList :: opened) :=
  leads_startTag "em".toList (by decide) (by decide) (by decide) opened

theorem leads_endEm_iff : Leads opened ("</em>".toList ++ y) opened' ↔
    ∃ inner, opened = "em".toList :: inner ∧ Leads inner y opened' :=
  leads_endTag_append_iff (by decide) (by decide)

theorem Word.exists_leads (h : Word emphasisTags w) (hl : Leads opened (unshield w ++ y) opened') :
    ∃ next, Leads opened (unshield w) next := by
  rcases h.em_cases with h | rfl | rfl
  · exact ⟨opened, h.leads opened⟩
  · exact ⟨_, leads_em opened⟩
  · rw [unshield_ascii (by decide)] at hl ⊢
    obtain ⟨next, rfl, _⟩ := leads_endEm_iff.mp hl
    exact ⟨next, leads_endEm_iff.mpr ⟨next, rfl, rfl⟩⟩

/-- Inside of an element of another name, a text with emphasis closes nothing but what it has opened. -/
theorem Spanned.leads_inside (h : Spanned emphasisTags t) (hname : name ≠ "em".toList)
    (hinner : name ∉ inner) (hl : Leads (inner ++ name :: outer) (unshield t ++ y) opened') :
    ∃ inner', name ∉ inner' ∧ Leads inner (unshield t) inner' ∧
      Leads (inner' ++ name :: outer) y opened' := by
  induction h generalizing inner with
  | nil => exact ⟨inner, hinner, rfl, hl⟩
  | @cons w t hw ht ih =>
    rw [Escape.unshield_append (hw.marked (List.Subset.refl _))] at hl ⊢
    rw [List.append_assoc] at hl
    rcases hw.em_cases with hw | rfl | rfl
    · rw [(hw.leads _).append_iff] at hl
      obtain ⟨inner', hname', hleads, hy⟩ := ih hinner hl
      exact ⟨inner', hname', (hw.leads inner).append_iff.mpr hleads, hy⟩
    · rw [unshield_ascii (by decide)] at hl ⊢
      rw [(leads_em _).append_iff] at hl
      have hem : name ∉ "em".toList :: inner := by
        rw [List.mem_cons, not_or]
        exact ⟨hname, hinner⟩
      obtain ⟨inner', hname', hleads, hy⟩ := ih hem hl
      exact ⟨inner', hname', (leads_em inner).append_iff.mpr hleads, hy⟩
    · rw [unshield_ascii (by decide)] at hl ⊢
      obtain ⟨rest, hrest, hl⟩ := leads_endEm_iff.mp hl
      cases inner with
      | nil => exact absurd (List.cons.inj hrest).1 hname
      | cons n inner =>
        obtain ⟨rfl, rfl⟩ := List.cons.inj hrest
        obtain ⟨inner', hname', hleads, hy⟩ := ih (fun hm => hinner (List.mem_cons_of_mem _ hm)) hl
        exact ⟨inner', hname', leads_endEm_iff.mpr ⟨inner, rfl, hleads⟩, hy⟩

/-- Around a label that is not nested in itself, the end tag of a link closes another element, or none. -/
theorem leads_label_iff (h : Spanned emphasisTags t) :
    Leads ("a".toList :: opened) (unshield t ++ "</a>".toList ++ y) opened' ↔
      Nested (unshield t) ∧ Leads opened y opened' := by
  have hend : ∀ inner : List Text, Leads inner ("</a>".toList ++ y) opened' ↔
      ∃ rest, inner = "a".toList :: rest ∧ Leads rest y opened' := fun _ =>
    leads_endTag_append_iff (by decide) (by decide)
  rw [List.append_assoc]
  constructor
  · intro hl
    have hl : Leads ([] ++ "a".toList :: opened) (unshield t ++ ("</a>".toList ++ y)) opened' := hl
    obtain ⟨inner, hname, hleads, hl⟩ := h.leads_inside (by decide) List.not_mem_nil hl
    obtain ⟨rest, hrest, hy⟩ := (hend _).mp hl
    cases inner with
    | nil =>
      obtain ⟨-, rfl⟩ := List.cons.inj hrest
      exact ⟨hleads, hy⟩
    | cons n inner => exact absurd (List.mem_cons.mpr (Or.inl (List.cons.inj hrest).1.symm)) hname
  · rintro ⟨hnested, hy⟩
    have hleads : Leads ([] ++ "a".toList :: opened) (unshield t) ([] ++ "a".toList :: opened) :=
      hnested.below _
    exact hleads.append_iff.mpr ((hend _).mpr ⟨opened, rfl, hy⟩)

theorem unshield_link {l : Link} (hlabel : Marked l.label) (htarget : Marked l.target) (y : Text) :
    unshield (l.html ++ y) = "<a href=\"".toList ++ unshield l.target ++ "\">".toList ++
      (unshield l.label ++ "</a>".toList ++ unshield y) := by
  have hlinked : ∀ {a b c : Text}, (∀ d ∈ a, d.toNat < 0x80) → (∀ d ∈ b, d.toNat < 0x80) →
      (∀ d ∈ c, d.toNat < 0x80) → unshield (a ++ l.target ++ b ++ l.label ++ c ++ y) =
        a ++ unshield l.target ++ b ++ (unshield l.label ++ c ++ unshield y) := by
    intro a b c ha hb hc
    have hrest := unshield_between (a := []) (List.forall_mem_nil _) hc hlabel y
    rw [List.nil_append, List.nil_append] at hrest
    rw [← hrest, ← unshield_between ha hb htarget]
    simp only [List.append_assoc]
  exact hlinked (by decide) (by decide) (by decide)

theorem leads_href (h : Clear x) (opened : List Text) :
    Leads opened ("<a href=\"".toList ++ x ++ "\">".toList) ("a".toList :: opened) := by
  have htag : "<a href=\"".toList ++ x ++ "\">".toList =
      '<' :: ("a href=\"".toList ++ x ++ "\"".toList ++ ['>']) := by
    have hopen : "<a href=\"".toList = '<' :: "a href=\"".toList := by decide
    have hclose : "\">".toList = "\"".toList ++ ['>'] := by decide
    rw [hopen, hclose, List.cons_append, List.cons_append, List.append_assoc _ _ ['>']]
  have hname : afterTag opened ("a href=\"".toList ++ x ++ "\"".toList) =
      some ("a".toList :: opened) := by
    simp [afterTag]
  rw [htag]
  exact leads_tag (Clear.append (Clear.append (by decide) h) (by decide)) hname

theorem not_leads_href {z : Text} (h : Clear x) :
    ¬ Leads opened ("<a href=\"".toList ++ (x ++ '<' :: y) ++ z) opened' := by
  have htag : "<a href=\"".toList ++ (x ++ '<' :: y) ++ z =
      '<' :: ("a href=\"".toList ++ x ++ '<' :: (y ++ z)) := by
    have hopen : "<a href=\"".toList = '<' :: "a href=\"".toList := by decide
    rw [hopen, List.cons_append, List.cons_append, List.append_assoc, List.append_assoc x,
      List.cons_append, ← List.append_assoc]
  rw [htag]
  exact not_leads_inside (Clear.append (by decide) h)

/-- A link around a nested label is read like its label, if no tag is in its target. -/
theorem leads_link_clear_iff {l : Link} (hlabel : Spanned emphasisTags l.label)
    (htarget : Marked l.target) (hclear : Clear (unshield l.target)) :
    Leads opened (unshield (l.html ++ y)) opened' ↔
      Nested (unshield l.label) ∧ Leads opened (unshield y) opened' := by
  rw [unshield_link (hlabel.marked (List.Subset.refl _)) htarget, (leads_href hclear opened).append_iff,
    leads_label_iff hlabel]

theorem not_leads_link_of_tag {l : Link} (hlabel : Marked l.label)
    (htarget : Spanned emphasisTags (l.target ++ x)) (hmarked : Marked l.target) (hlt : '<' ∈ l.target) :
    ¬ Leads opened (unshield (l.html ++ y)) opened' := by
  have htags : emphasisTags ⊆ emphasisTags := List.Subset.refl _
  obtain ⟨before, after, hsplit, hbefore⟩ := List.eq_append_cons_of_mem hlt
  rw [hsplit, List.append_assoc] at htarget
  obtain ⟨hspanned, -⟩ := htarget.split htags (by decide) (Or.inr hbefore)
  have hu : unshield ('<' :: after) = '<' :: unshield after := Escape.unshield_cons (by decide) after
  rw [unshield_link hlabel hmarked, hsplit, Escape.unshield_append (hspanned.marked htags), hu,
    List.append_assoc ("<a href=\"".toList ++ _)]
  exact not_leads_href (hspanned.clear htags hbefore)

/-- How a link was written is read like its label as well. -/
theorem leads_source_iff {l : Link} (hlabel : Marked l.label) (htarget : Marked l.target)
    (hnested : Nested (unshield l.label)) (hclear : Clear (unshield l.target)) (rest : Text) :
    Leads opened (unshield ('[' :: (l.label ++ ']' :: '(' :: (l.target ++ ')' :: rest)))) opened' ↔
      Leads opened (unshield rest) opened' := by
  have hleads : Leads opened (unshield l.label) opened := hnested.below opened
  calc
    _ ↔ Leads opened (unshield (l.label ++ ']' :: '(' :: (l.target ++ ')' :: rest))) opened' :=
      leads_unreserved_iff (x := ['[']) (by decide) _
    _ ↔ Leads opened (unshield (']' :: '(' :: (l.target ++ ')' :: rest))) opened' := by
      rw [Escape.unshield_append hlabel, hleads.append_iff]
    _ ↔ Leads opened (unshield (l.target ++ ')' :: rest)) opened' :=
      leads_unreserved_iff (x := [']', '(']) (by decide) _
    _ ↔ Leads opened (unshield (')' :: rest)) opened' := by
      rw [Escape.unshield_append htarget, (leads_of_clear hclear opened).append_iff]
    _ ↔ Leads opened (unshield rest) opened' := leads_unreserved_iff (x := [')']) (by decide) _

/-- The rule for links leaves what was read as before exactly if every link has a label that is nested in
itself and a target without a tag. -/
theorem leads_link_iff (h : Spanned emphasisTags t) (hl : Leads opened (unshield t) opened') :
    Leads opened (unshield (Rule.link.apply t)) opened' ↔
      ∀ l, .found l ∈ pieces link? t → Nested (unshield l.label) ∧ '<' ∉ l.target := by
  have hfirst : '[' ∈ hidden := by decide
  have htags : emphasisTags ⊆ emphasisTags := List.Subset.refl _
  revert opened
  refine Spanned.scan_induction htags link? hfirst (motive := fun t => ∀ {opened : List Text},
    Leads opened (unshield t) opened' → (Leads opened (unshield (Rule.link.apply t)) opened' ↔
      ∀ l, .found l ∈ pieces link? t → Nested (unshield l.label) ∧ '<' ∉ l.target)) ?_ ?_ ?_ ?_ h
  · exact fun hl => iff_of_true hl fun l hm => absurd hm List.not_mem_nil
  · intro w t hw hm _ ih opened hl
    have happly : Rule.link.apply (w ++ t) = w ++ Rule.link.apply t :=
      Text.replaceAll_append link?_looksFor hm t
    rw [Escape.unshield_append (hw.marked htags)] at hl
    obtain ⟨next, hnext⟩ := hw.exists_leads hl
    rw [hnext.append_iff] at hl
    rw [happly, Escape.unshield_append (hw.marked htags), hnext.append_iff, ih hl]
    simp only [Text.found_mem_pieces_append link?_looksFor hm]
  · intro t hs _ ih opened hl
    have hbracket : ∀ u : Text, Leads opened (unshield ('[' :: u)) opened' ↔
        Leads opened (unshield u) opened' := leads_unreserved_iff (x := ['[']) (by decide)
    rw [hbracket] at hl
    rw [apply_link_plain hs, hbracket, ih hl, Text.pieces_cons, hs]
    simp
  · intro t l n hs ht ih opened hl
    obtain ⟨-, -, -, rest, ho⟩ := link?_eq_some_iff.mp hs
    have hdrop : t.drop n = rest := by
      obtain ⟨rfl, -⟩ := link?_eq_some_iff.mp hs
      exact ho.drop_link
    have hpieces : pieces link? ('[' :: t) = .found l :: pieces link? rest := by
      rw [Text.pieces_cons, hs, ← hdrop]
    rw [hdrop] at ih
    rw [apply_link_found hs, hpieces, hdrop]
    rw [ho.1] at ht hl
    have ht := (ht.split_hidden (x := []) htags hfirst).2
    obtain ⟨hlabel, ht⟩ := ht.split_hidden htags (by decide)
    have ht := (ht.split (x := []) htags (by decide) (Or.inr List.not_mem_nil)).2 (by decide)
    have hlm := hlabel.marked htags
    have htm := ((ht.marked htags).split (by decide)).1
    have hfound : Piece.found l ∈ Piece.found l :: pieces link? rest := List.mem_cons_self
    by_cases hlt : '<' ∈ l.target
    · exact iff_of_false (not_leads_link_of_tag hlm ht htm hlt) fun hall => (hall l hfound).2 hlt
    · obtain ⟨htarget, hrest⟩ := ht.split htags (by decide) (Or.inr hlt)
      have hclear := htarget.clear htags hlt
      rw [leads_link_clear_iff hlabel htm hclear]
      by_cases hnested : Nested (unshield l.label)
      · rw [leads_source_iff hlm htm hnested hclear] at hl
        rw [ih (hrest (by decide)) hl]
        simp [hnested, hlt]
      · exact iff_of_false (fun hread => hnested hread.1) fun hall => hnested (hall l hfound).1

theorem apart_of_mem_headingLevel : ∀ c ∈ headingLevel t, c ∉ "<> /".toList := by
  intro c hc
  rcases List.mem_cons.mp hc with rfl | hc
  · decide
  · have hdigit : c.isDigit = true := Nat.isDigit_of_mem_toDigits (by decide) (by decide) hc
    have hall : ∀ d ∈ "<> /".toList, d.isDigit = false := by decide
    intro hm
    exact Bool.noConfusion (hdigit.symm.trans (hall c hm))

/-- A heading loses white space and number signs in front of its title. -/
theorem exists_headingLead (t : Text) :
    ∃ lead, t = lead ++ headingTitle t ∧ ∀ c ∈ lead, Text.isSpace c = true ∨ c = '#' := by
  have hspace : ∀ u : Text, ∀ c ∈ u.takeWhile Text.isSpace, Text.isSpace c = true ∨ c = '#' :=
    fun u c hc => Or.inl (List.all_eq_true.mp List.all_takeWhile c hc)
  refine ⟨t.takeWhile Text.isSpace ++ (headingMarks t ++
    ((Text.trimStart t).dropWhile (· = '#')).takeWhile Text.isSpace), ?_, ?_⟩
  · rw [headingTitle, headingMarks, List.append_assoc, List.append_assoc, Text.trimStart, Text.trimStart,
      List.takeWhile_append_dropWhile, List.takeWhile_append_dropWhile, List.takeWhile_append_dropWhile]
  · intro c hc
    rcases List.mem_append.mp hc with hc | hc
    · exact hspace _ c hc
    · rcases List.mem_append.mp hc with hc | hc
      · exact Or.inr (of_decide_eq_true (List.all_eq_true.mp List.all_takeWhile c hc))
      · exact hspace _ c hc

/-- A heading is nested if what it is made of is read as before inside of one element more. -/
theorem exists_nested_wrapHeading_iff (h : Marked t) :
    ∃ opened, Nested (unshield (wrapHeading t)) ↔ Leads opened (unshield t) opened := by
  by_cases hp : headingMarks t = [] ∨ '\n' ∈ headingTitle t
  · rw [wrapHeading_of_plain hp]
    exact ⟨[], Iff.rfl⟩
  · obtain ⟨hm, hn⟩ := not_or.mp hp
    obtain ⟨lead, ht, hlead⟩ := exists_headingLead t
    have hdark : ∀ c ∈ lead, isReserved c = false ∧ Clear [c] := by
      intro c hc
      rcases hlead c hc with hs | rfl
      · exact ⟨isReserved_of_isSpace hs, clear_of_differs hs (by decide) (by decide)⟩
      · decide
    have htitle : Marked (headingTitle t) := by
      rw [ht] at h
      exact h.of_append fun c hc => (hdark c hc).1
    have hhtml : unshield (wrapHeading t) = element (headingLevel t) (unshield (headingTitle t)) := by
      have hbetween := unshield_between (fun c hc => (toNat_openHeading t c hc).2)
        (fun c hc => (toNat_closeHeading t c hc).2) htitle []
      rw [wrapHeading_of_marks hm hn, ← List.append_nil (_ ++ closeHeading t), hbetween, unshield,
        List.append_nil]
      exact element_eq rfl rfl _
    have hlevel : ∀ c ∈ "<> /".toList, c ∉ headingLevel t := fun c hc hm =>
      apart_of_mem_headingLevel c hm hc
    refine ⟨[headingLevel t], ?_⟩
    rw [Nested, hhtml, ← List.append_nil (element _ _),
      leads_element_iff ⟨hlevel _ (by decide), hlevel _ (by decide)⟩ (hlevel _ (by decide))
        (hlevel _ (by decide))]
    simp only [leads_nil_iff, exists_eq_right]
    have hwhole : Leads [headingLevel t] (unshield (lead ++ headingTitle t)) [headingLevel t] ↔
        Leads [headingLevel t] (unshield (headingTitle t)) [headingLevel t] :=
      leads_unreserved_iff hdark _
    rw [← ht] at hwhole
    exact hwhole.symm

/-- Of a line without tags of its own, the tags are nested exactly if each link that is made of it has a
label whose tags are nested in themselves and a target without a tag. -/
theorem nested_convert_iff (hlt : '<' ∉ line) (hgt : '>' ∉ line) :
    Nested (convert line) ↔ ∀ l, .found l ∈ pieces link? (unlinked line) →
      Nested (unshield l.label) ∧ '<' ∉ l.target := by
  obtain ⟨huncommented, hbare⟩ := spanned_uncommented ⟨hlt, hgt⟩
  obtain ⟨hspanned, hleads⟩ := spanned_emphasis (spanned_codeSpan huncommented hbare)
  have hm : Marked (Rule.link.apply (unlinked line)) :=
    marked_link (hspanned.marked (List.Subset.refl _))
  have hconvert : convert line = unshield (wrapHeading (Rule.link.apply (unlinked line))) := by
    rw [convert_eq_wrapHeading, markup_eq]
    rfl
  obtain ⟨opened, hiff⟩ := exists_nested_wrapHeading_iff hm
  rw [hconvert, hiff]
  exact leads_link_iff hspanned (hleads opened)

theorem nested_convert_iff_crowded :
    '<' ∉ "# *a* [`b` *c*](d)".toList ∧ '>' ∉ "# *a* [`b` *c*](d)".toList ∧
      Nested (convert "# *a* [`b` *c*](d)".toList) := by
  have hlt : '<' ∉ "# *a* [`b` *c*](d)".toList := by decide
  have hgt : '>' ∉ "# *a* [`b` *c*](d)".toList := by decide
  refine ⟨hlt, hgt, (nested_convert_iff hlt hgt).mpr fun l hl => ?_⟩
  have hall : (pieces link? (unlinked "# *a* [`b` *c*](d)".toList)).all (fun
      | .found l => decide (Nested (unshield l.label) ∧ '<' ∉ l.target)
      | .plain _ => true) = true := by decide +kernel
  exact of_decide_eq_true (List.all_eq_true.mp hall _ hl)

/-- Tags cross where a label ends inside of emphasis, and emphasis in a target stands inside of a tag. -/
theorem convert_not_nested :
    Clear "*[a*](b)".toList ∧ '\n' ∉ "*[a*](b)".toList ∧
      convert "*[a*](b)".toList = "<em><a href=\"b\">a</em></a>".toList ∧
      ¬ Nested (convert "*[a*](b)".toList) ∧
    Clear "[a](*b*)".toList ∧ '\n' ∉ "[a](*b*)".toList ∧
      convert "[a](*b*)".toList = "<a href=\"<em>b</em>\">a</a>".toList ∧
      ¬ Nested (convert "[a](*b*)".toList) := by
  decide +kernel

end LineMarkup.Inline
