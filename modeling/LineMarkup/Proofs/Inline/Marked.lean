import LineMarkup.Proofs.Escape.Marked
import LineMarkup.Proofs.Inline.Site

/-!
What every rule keeps: a marked text stays marked, so that no rule parts a literal mark from its
character, and a text without newlines stays one.
-/

namespace LineMarkup.Inline

set_option autoImplicit false

open Escape (Marked isReserved literalMark)

theorem isReserved_of_isSpace {c : Char} (h : Text.isSpace c = true) : isReserved c = false := by
  obtain ⟨r, hr, hl, hu⟩ := Text.Ranges.holds_iff.mp h
  rw [Bool.eq_false_iff]
  intro hc
  simp only [isReserved, Bool.and_eq_true, Nat.ble_eq] at hc
  simp only [Text.spaceRanges, List.mem_cons, List.not_mem_nil, or_false] at hr
  rcases hr with rfl | rfl | rfl | rfl | rfl | rfl | rfl | rfl | rfl | rfl <;> simp only at hl hu <;>
    omega

theorem dark_of_isReserved {c : Char} (h : isReserved c = true) :
    0x80 ≤ c.toNat ∧ Text.isSpace c = false := by
  constructor
  · simp only [isReserved, Bool.and_eq_true, Nat.ble_eq] at h
    omega
  · cases hs : Text.isSpace c with
    | false => rfl
    | true => exact Bool.noConfusion (h.symm.trans (isReserved_of_isSpace hs))

theorem marked_of_ascii {t : Text} (h : ∀ c ∈ t, c.toNat < 0x80) : Marked t :=
  .of_not_mem fun hm => absurd (h _ hm) (by decide)

theorem marked_dropWhile {p : Char → Bool} (hp : ∀ c, p c = true → isReserved c = false) {t : Text}
    (h : Marked t) : Marked (t.dropWhile p) := by
  rw [← List.takeWhile_append_dropWhile (p := p) (l := t)] at h
  exact h.of_append fun c hc => hp c (List.all_eq_true.mp List.all_takeWhile c hc)

theorem marked_dropComment {t : Text} (h : Marked t) : Marked (dropComment t) := by
  obtain ⟨rest, ht, rfl | ⟨c, r, rfl, hs⟩⟩ := dropComment_prefix t
  · rw [List.append_nil] at ht
    rwa [← ht]
  · rw [ht] at h
    refine (h.split ?_).1
    rcases startsComment_head hs with hc | rfl
    · exact isReserved_of_isSpace hc
    · decide

section Scan
variable {α : Type} {site : Text.Site α}
variable (hd : ∀ c r a n, site (c :: r) = some (a, n) → Marked (c :: r) → Marked (r.drop n))
include hd

/-- Induction along a scan of a marked text: a find never parts a literal mark from its character. -/
theorem marked_scan_induction {motive : Text → Prop} (nil : motive [])
    (plain : ∀ c r, c ≠ literalMark → site (c :: r) = none → motive r → motive (c :: r))
    (literal : ∀ c r, isReserved c = true → motive r → motive (literalMark :: c :: r))
    (found : ∀ c r a n, site (c :: r) = some (a, n) → Marked (c :: r) → motive (r.drop n) →
      motive (c :: r)) {t : Text} (h : Marked t) : motive t := by
  induction hn : t.length using Nat.strongRecOn generalizing t with
  | ind n ih =>
    have hm := h
    cases h with
    | nil => exact nil
    | @plain c r hc hr =>
      cases ha : site (c :: r) with
      | none =>
        have hlen : r.length < n := by rw [← hn, List.length_cons]; omega
        exact plain c r hc ha (ih r.length hlen hr rfl)
      | some p =>
        have hlen : (r.drop p.2).length < n := by rw [← hn, List.length_cons, List.length_drop]; omega
        exact found c r p.1 p.2 ha hm (ih _ hlen (hd c r p.1 p.2 ha hm) rfl)
    | @literal c r hc hr =>
      have hlen : r.length < n := by rw [← hn, List.length_cons, List.length_cons]; omega
      exact literal c r hc (ih r.length hlen hr rfl)

theorem marked_replaceAll {f : α → Text}
    (hs : ∀ c r, isReserved c = true → site (c :: r) = none)
    (hf : ∀ c r a n, site (c :: r) = some (a, n) → Marked (c :: r) → Marked (f a)) {t : Text}
    (h : Marked t) : Marked (Text.replaceAll site f t) := by
  refine marked_scan_induction hd (motive := fun t => Marked (Text.replaceAll site f t))
    .nil ?_ ?_ ?_ h
  · intro c r hc ha ih
    rw [Text.replaceAll_plain ha]
    exact .plain hc ih
  · intro c r hc ih
    rw [Text.replaceAll_plain (hs _ _ Escape.isReserved_literalMark),
      Text.replaceAll_plain (hs c r hc)]
    exact .literal hc ih
  · intro c r a n ha hm ih
    rw [Text.replaceAll_found ha]
    exact (hf c r a n ha hm).append ih

end Scan

theorem pair?_of_isReserved {mark : Char} (hm : isReserved mark = false) {c : Char} (r : Text)
    (hc : isReserved c = true) : pair? mark (c :: r) = none := by
  apply pair?_looksFor
  rintro rfl
  exact Bool.noConfusion (hc.symm.trans hm)

theorem marked_of_pair? {mark c : Char} (hm : isReserved mark = false) {r inner : Text} {n : Nat}
    (hs : pair? mark (c :: r) = some (inner, n)) (h : Marked (c :: r)) :
    Marked inner ∧ Marked (r.drop n) := by
  obtain ⟨rfl, rfl, -, rest, rfl⟩ := pair?_eq_some_iff.mp hs
  rw [drop_pair]
  exact (Marked.split (x := []) hm h).2.split hm

theorem marked_pair_induction {mark : Char} (hm : isReserved mark = false) {motive : Text → Prop}
    (nil : motive [])
    (plain : ∀ c r, c ≠ literalMark → pair? mark (c :: r) = none → motive r → motive (c :: r))
    (literal : ∀ c r, isReserved c = true → pair? mark (literalMark :: c :: r) = none →
      pair? mark (c :: r) = none → motive r → motive (literalMark :: c :: r))
    (found : ∀ c r inner n, pair? mark (c :: r) = some (inner, n) → Marked inner →
      motive (r.drop n) → motive (c :: r)) {t : Text} (h : Marked t) : motive t := by
  have hd : ∀ c r inner n, pair? mark (c :: r) = some (inner, n) → Marked (c :: r) →
      Marked (r.drop n) := fun c r inner n hs hc => (marked_of_pair? hm hs hc).2
  refine marked_scan_induction hd nil plain ?_ ?_ h
  · intro c r hc
    exact literal c r hc (pair?_of_isReserved hm _ Escape.isReserved_literalMark)
      (pair?_of_isReserved hm r hc)
  · intro c r inner n hs hc
    exact found c r inner n hs (marked_of_pair? hm hs hc).1

theorem marked_pair {mark : Char} (hm : isReserved mark = false) {f : Text → Text}
    (hf : ∀ x, Marked x → Marked (f x)) {t : Text} (h : Marked t) :
    Marked (Text.replaceAll (pair? mark) f t) := by
  apply marked_replaceAll _ _ _ h
  · exact fun c r inner n hs hc => (marked_of_pair? hm hs hc).2
  · exact fun c r hc => pair?_of_isReserved hm r hc
  · exact fun c r inner n hs hc => hf inner (marked_of_pair? hm hs hc).1

theorem marked_of_link? {c : Char} {r : Text} {l : Link} {n : Nat}
    (hs : link? (c :: r) = some (l, n)) (h : Marked (c :: r)) :
    Marked l.label ∧ Marked l.target ∧ Marked (r.drop n) := by
  obtain ⟨rfl, -, -, rest, ho⟩ := link?_eq_some_iff.mp hs
  rw [ho.1] at h
  obtain ⟨hlabel, htail⟩ := (Marked.split (x := []) (by decide) h).2.split (by decide)
  obtain ⟨htarget, hrest⟩ := (Marked.split (x := []) (by decide) htail).2.split (by decide)
  rw [ho.drop_link]
  exact ⟨hlabel, htarget, hrest⟩

theorem marked_link {t : Text} (h : Marked t) : Marked (Rule.link.apply t) := by
  apply marked_replaceAll _ _ _ h
  · exact fun c r l n hs hc => (marked_of_link? hs hc).2.2
  · intro c r hc
    apply link?_looksFor
    rintro rfl
    exact absurd hc (by decide)
  · intro c r l n hs hc
    obtain ⟨hlabel, htarget, _⟩ := marked_of_link? hs hc
    exact ((((marked_of_ascii (by decide)).append htarget).append
      (marked_of_ascii (by decide))).append hlabel).append (marked_of_ascii (by decide))

theorem marked_wrapHeading {t : Text} (h : Marked t) : Marked (wrapHeading t) := by
  by_cases hp : headingMarks t = [] ∨ '\n' ∈ headingTitle t
  · rwa [wrapHeading_of_plain hp]
  · obtain ⟨hm, hn⟩ := not_or.mp hp
    have hsign : ∀ c, decide (c = '#') = true → isReserved c = false := by
      intro c hc
      rw [of_decide_eq_true hc]
      decide
    have htitle : Marked (headingTitle t) :=
      marked_dropWhile (fun _ => isReserved_of_isSpace)
        (marked_dropWhile hsign (marked_dropWhile (fun _ => isReserved_of_isSpace) h))
    rw [wrapHeading_of_marks hm hn]
    exact ((marked_of_ascii fun c hc => (toNat_openHeading t c hc).2).append htitle).append
      (marked_of_ascii fun c hc => (toNat_closeHeading t c hc).2)

theorem marked_codeHtml {x : Text} (h : Marked x) : Marked (codeHtml x) :=
  ((marked_of_ascii (by decide)).append h.shieldText).append (marked_of_ascii (by decide))

theorem Rule.marked_apply (rule : Rule) {t : Text} (h : Marked t) : Marked (rule.apply t) := by
  cases rule with
  | comment => exact marked_dropComment h
  | codeSpan =>
    exact marked_pair (by decide) (fun _ => marked_codeHtml) h
  | emphasis =>
    apply marked_pair (by decide) _ h
    exact fun x hx => ((marked_of_ascii (by decide)).append hx).append (marked_of_ascii (by decide))
  | link => exact marked_link h
  | heading => exact marked_wrapHeading h

theorem marked_applyAll (rules : List Rule) {t : Text} (h : Marked t) :
    Marked (rules.foldl (fun t rule => rule.apply t) t) := by
  induction rules generalizing t with
  | nil => exact h
  | cons rule rules ih => exact ih (rule.marked_apply h)

theorem newline_not_mem_shieldText {t : Text} (h : '\n' ∉ t) : '\n' ∉ Escape.shieldText t := by
  intro hm
  obtain ⟨c, hc, hs⟩ := List.mem_map.mp hm
  rcases Escape.shield_eq_self_or c with he | he
  · rw [he] at hs
    exact h (hs ▸ hc)
  · rw [hs] at he
    have hr : isReserved '\n' = true := (Escape.isReserved_of_mem_shields _ he).2.1
    exact absurd hr (by decide)

theorem newline_not_mem_pair {mark : Char} {f : Text → Text}
    (hf : ∀ x, '\n' ∉ x → '\n' ∉ f x) {t : Text} (h : '\n' ∉ t) :
    '\n' ∉ Text.replaceAll (pair? mark) f t := by
  have hall : ∀ d ∈ Text.replaceAll (pair? mark) f t, d ≠ '\n' := by
    apply Text.forall_mem_replaceAll
    · rintro d hd rfl
      exact h hd
    · intro c r inner n hs hcr
      obtain ⟨rfl, rfl, -, rest, rfl⟩ := pair?_eq_some_iff.mp hs
      have hinner : '\n' ∉ inner := fun hi => hcr '\n' (by simp [hi]) rfl
      rintro d hd rfl
      exact hf inner hinner hd
  exact fun hm => hall '\n' hm rfl

/-- No rule brings in a newline. -/
theorem Rule.newline_not_mem_apply (rule : Rule) {t : Text} (h : '\n' ∉ t) :
    '\n' ∉ rule.apply t := by
  have between : ∀ {a b x : Text}, '\n' ∉ a → '\n' ∉ b → '\n' ∉ x → '\n' ∉ a ++ x ++ b := by
    intro a b x ha hb hx hm
    simp only [List.mem_append] at hm
    rcases hm with (hm | hm) | hm
    · exact ha hm
    · exact hx hm
    · exact hb hm
  have ascii : ∀ {x : Text}, (∀ c ∈ x, 0x20 ≤ c.toNat) → '\n' ∉ x := fun hx hm =>
    absurd (hx _ hm) (by decide)
  cases rule with
  | comment =>
    obtain ⟨rest, ht, _⟩ := dropComment_prefix t
    intro hm
    exact h (by rw [ht]; exact List.mem_append_left _ hm)
  | codeSpan =>
    apply newline_not_mem_pair _ h
    exact fun x hx => between (ascii (by decide)) (ascii (by decide)) (newline_not_mem_shieldText hx)
  | emphasis =>
    apply newline_not_mem_pair _ h
    exact fun x hx => between (ascii (by decide)) (ascii (by decide)) hx
  | link =>
    have hall : ∀ d ∈ Text.replaceAll link? Link.html t, d ≠ '\n' := by
      apply Text.forall_mem_replaceAll
      · rintro d hd rfl
        exact h hd
      · intro c r l n hs hcr
        obtain ⟨rfl, -, -, rest, ho⟩ := link?_eq_some_iff.mp hs
        rw [ho.1] at hcr
        have hlabel : '\n' ∉ l.label := fun hl => hcr '\n' (by simp [hl]) rfl
        have htarget : '\n' ∉ l.target := fun hl => hcr '\n' (by simp [hl]) rfl
        rintro d hd rfl
        exact between (between (ascii (by decide)) (ascii (by decide)) htarget) (ascii (by decide))
          hlabel hd
    exact fun hm => hall '\n' hm rfl
  | heading =>
    by_cases hp : headingMarks t = [] ∨ '\n' ∈ headingTitle t
    · rw [Rule.apply, wrapHeading_of_plain hp]
      exact h
    · obtain ⟨hm, hn⟩ := not_or.mp hp
      rw [Rule.apply, wrapHeading_of_marks hm hn]
      apply between _ _ hn
      · exact ascii fun c hc => Nat.le_trans (by decide) (toNat_openHeading t c hc).1
      · exact ascii fun c hc => Nat.le_trans (by decide) (toNat_closeHeading t c hc).1

end LineMarkup.Inline
