import LineMarkup.Proofs.Escape.Unescape
import LineMarkup.Proofs.Inline.CodeSpan
import LineMarkup.Proofs.Inline.Tags

/-!
What a line without tags of its own consists of after the rules for code spans and emphasis: characters,
whole code spans and the tags of emphasis. The characters that the rules look for are hidden in code
spans, so that no cut at one of them parts a code span.
-/

namespace LineMarkup.Inline

set_option autoImplicit false

open Escape (Marked isReserved literalMark unshield unshieldChar shieldEscapes)

/-- The characters at which rules cut a text and that no code span shows. -/
def hidden : List Char := ['\x60', '*', '[', ']']

def emphasisTags : List Text := ["<em>".toList, "</em>".toList]

inductive Word (tags : List Text) : Text → Prop where
  | plain {c : Char} : c ≠ literalMark → Clear [unshieldChar c] → Word tags [c]
  | literal {c : Char} : isReserved c = true → Word tags [literalMark, c]
  | code {text : Text} : Marked text → Clear (unshield text) → Word tags (codeHtml text)
  | tag {w : Text} : w ∈ tags → Word tags w

inductive Spanned (tags : List Text) : Text → Prop where
  | nil : Spanned tags []
  | cons {w t : Text} : Word tags w → Spanned tags t → Spanned tags (w ++ t)

variable {tags : List Text} {t w x y : Text} {c : Char}

theorem dark_of_mem_hidden : ∀ c ∈ hidden, isReserved c = false ∧ c ≠ '<' := by decide

theorem hidden_not_mem_codeHtml (hc : c ∈ hidden) (text : Text) : c ∉ codeHtml text := by
  have hdark : ∀ c ∈ hidden, isReserved c = false ∧ c ∉ "<code>/".toList ∧ Escape.shield c ≠ c := by
    decide
  obtain ⟨hr, hmarkup, hs⟩ := hdark c hc
  intro hm
  rcases mem_codeHtml hm with hm | ⟨d, _, hd⟩
  · exact hmarkup hm
  · rcases Escape.shield_eq_self_or d with he | he
    · rw [he] at hd
      rw [hd] at he
      exact hs he
    · rw [hd] at he
      exact Bool.noConfusion (hr.symm.trans (Escape.isReserved_of_mem_shields _ he).2.1)

namespace Word

theorem mono (h : Word [] w) : Word tags w := by
  cases h with
  | plain hc hclear => exact .plain hc hclear
  | literal hc => exact .literal hc
  | code hm hclear => exact .code hm hclear
  | tag hw => exact absurd hw List.not_mem_nil

/-- A word is one character, if need be with a literal mark, or it starts with a tag and hides what the
rules look for. -/
theorem shape (htags : tags ⊆ emphasisTags) (h : Word tags w) :
    (∃ c, w = [c]) ∨ (∃ c, isReserved c = true ∧ w = [literalMark, c]) ∨
      (∃ r, w = '<' :: r) ∧ ∀ c ∈ hidden, c ∉ w := by
  cases h with
  | plain => exact Or.inl ⟨_, rfl⟩
  | literal hc => exact Or.inr (Or.inl ⟨_, hc, rfl⟩)
  | code => exact Or.inr (Or.inr ⟨codeHtml_cons _, fun c hc => hidden_not_mem_codeHtml hc _⟩)
  | tag hw =>
    have hall : ∀ w ∈ emphasisTags, w = '<' :: w.tail ∧ ∀ c ∈ hidden, c ∉ w := by decide
    obtain ⟨hlt, hhidden⟩ := hall w (htags hw)
    exact Or.inr (Or.inr ⟨⟨_, hlt⟩, hhidden⟩)

theorem ne_nil (htags : tags ⊆ emphasisTags) (h : Word tags w) : w ≠ [] := by
  rcases h.shape htags with ⟨c, rfl⟩ | ⟨c, _, rfl⟩ | ⟨⟨r, rfl⟩, _⟩
  · exact List.cons_ne_nil _ _
  · exact List.cons_ne_nil _ _
  · exact List.cons_ne_nil _ _

theorem marked (htags : tags ⊆ emphasisTags) (h : Word tags w) : Marked w := by
  cases h with
  | plain hc _ => exact .plain hc .nil
  | literal hc => exact .literal hc .nil
  | code hm _ => exact marked_codeHtml hm
  | tag hw =>
    have hascii : ∀ w ∈ emphasisTags, ∀ c ∈ w, c.toNat < 0x80 := by decide
    exact marked_of_ascii (hascii w (htags hw))

/-- A word stands alone at a character that it does not hide. -/
theorem alone (htags : tags ⊆ emphasisTags) (h : Word tags (x ++ c :: y)) (hc : isReserved c = false)
    (hcut : c ∈ hidden ∨ '<' ∉ x) : x = [] ∧ (c ≠ '<' → y = []) := by
  rcases h.shape htags with ⟨d, hw⟩ | ⟨d, hd, hw⟩ | ⟨⟨r, hw⟩, hhidden⟩
  · cases x with
    | nil => exact ⟨rfl, fun _ => (List.cons.inj hw).2⟩
    | cons a x => simp at hw
  · cases x with
    | nil => exact absurd (List.cons.inj hw).1 (Escape.ne_literalMark hc)
    | cons a x =>
      cases x with
      | nil =>
        have hcd : c = d := (List.cons.inj (List.cons.inj hw).2).1
        exact Bool.noConfusion (hc.symm.trans (hcd ▸ hd))
      | cons b x => simp at hw
  · have hx : '<' ∉ x := hcut.resolve_left fun hc => hhidden c hc (by simp)
    cases x with
    | nil => exact ⟨rfl, fun hne => absurd (List.cons.inj hw).1 hne⟩
    | cons a x => exact absurd (List.mem_cons.mpr (Or.inl (List.cons.inj hw).1.symm)) hx

end Word

namespace Spanned

theorem singleton (h : Word tags w) : Spanned tags w := by
  rw [← List.append_nil w]
  exact .cons h .nil

theorem mono (h : Spanned [] t) : Spanned tags t := by
  induction h with
  | nil => exact .nil
  | cons hw _ ih => exact .cons hw.mono ih

theorem append (hx : Spanned tags x) (hy : Spanned tags y) : Spanned tags (x ++ y) := by
  induction hx with
  | nil => exact hy
  | cons hw _ ih =>
    rw [List.append_assoc]
    exact .cons hw ih

theorem of_marked (h : Marked t) (hclear : Clear (unshield t)) : Spanned tags t := by
  induction h with
  | nil => exact .nil
  | @plain c t hc _ ih =>
    rw [Escape.unshield_cons hc] at hclear
    simp only [Clear, List.mem_cons, not_or] at hclear
    exact .cons (.plain hc (by simp [Clear, hclear.1.1, hclear.2.1])) (ih ⟨hclear.1.2, hclear.2.2⟩)
  | @literal c t hc _ ih =>
    rw [Escape.unshield_literal] at hclear
    simp only [Clear, List.mem_cons, not_or] at hclear
    exact .cons (.literal hc) (ih ⟨hclear.1.2, hclear.2.2⟩)

variable (htags : tags ⊆ emphasisTags)
include htags

theorem marked (h : Spanned tags t) : Marked t := by
  induction h with
  | nil => exact .nil
  | cons hw _ ih => exact (hw.marked htags).append ih

theorem clear (h : Spanned tags t) (hlt : '<' ∉ t) : Clear (unshield t) := by
  induction h with
  | nil => decide
  | @cons w t hw ht ih =>
    rw [List.mem_append, not_or] at hlt
    rw [Escape.unshield_append (hw.marked htags)]
    refine Clear.append ?_ (ih hlt.2)
    cases hw with
    | @plain c hc hclear => rwa [Escape.unshield_cons hc]
    | @literal c hc =>
      rw [Escape.unshield_literal]
      exact clear_of_differs hc rfl rfl
    | @code text =>
      obtain ⟨r, hr⟩ := codeHtml_cons text
      rw [hr] at hlt
      exact absurd List.mem_cons_self hlt.1
    | tag hw =>
      have hall : ∀ w ∈ emphasisTags, '<' ∈ w := by decide
      exact absurd (hall w (htags hw)) hlt.1

/-- A cut at a character that code spans hide, or in front of the first tag, leaves two such texts; the
second part may start in the middle of a word only if it is cut at a tag. -/
theorem split (h : Spanned tags (x ++ c :: y)) (hc : isReserved c = false)
    (hcut : c ∈ hidden ∨ '<' ∉ x) : Spanned tags x ∧ (c ≠ '<' → Spanned tags y) := by
  generalize ht : x ++ c :: y = t at h
  induction h generalizing x with
  | nil => simp at ht
  | @cons w t hw hspanned ih =>
    rcases Text.append_cons_cases ht.symm with ⟨a, rfl, rfl⟩ | ⟨a, rfl, ha⟩
    · obtain ⟨rfl, hnil⟩ := hw.alone htags hc hcut
      refine ⟨.nil, fun hne => ?_⟩
      rw [hnil hne]
      exact hspanned
    · have hcut : c ∈ hidden ∨ '<' ∉ a := hcut.imp_right fun hx hm => hx (List.mem_append_right w hm)
      obtain ⟨hx, hy⟩ := ih hcut ha.symm
      exact ⟨.cons hw hx, hy⟩

theorem split_hidden (h : Spanned tags (x ++ c :: y)) (hc : c ∈ hidden) :
    Spanned tags x ∧ Spanned tags y := by
  obtain ⟨hr, hne⟩ := dark_of_mem_hidden c hc
  obtain ⟨hx, hy⟩ := h.split htags hr (Or.inl hc)
  exact ⟨hx, hy hne⟩

/-- Induction along a scan for a character that code spans hide: from word to word, from there to the
next find, and on behind it if a word ends there. -/
theorem scan_induction {α : Type} (site : Text.Site α) {first : Char} (hfirst : first ∈ hidden)
    {motive : Text → Prop} (nil : motive [])
    (word : ∀ w t, Word tags w → first ∉ w → Spanned tags t → motive t → motive (w ++ t))
    (plain : ∀ t, site (first :: t) = none → Spanned tags t → motive t → motive (first :: t))
    (found : ∀ t a n, site (first :: t) = some (a, n) → Spanned tags (first :: t) →
      (Spanned tags (t.drop n) → motive (t.drop n)) → motive (first :: t))
    (h : Spanned tags t) : motive t := by
  induction hn : t.length using Nat.strongRecOn generalizing t with
  | ind n ih =>
    have hspanned := h
    cases h with
    | nil => exact nil
    | @cons w t hw ht =>
      have hlen : t.length < n := by
        have := List.length_pos_iff.mpr (hw.ne_nil htags)
        rw [← hn, List.length_append]
        omega
      by_cases hm : first ∈ w
      · obtain ⟨x, y, rfl⟩ := List.append_of_mem hm
        obtain ⟨hr, hne⟩ := dark_of_mem_hidden first hfirst
        obtain ⟨rfl, hnil⟩ := hw.alone htags hr (Or.inl hfirst)
        obtain rfl := hnil hne
        cases hs : site (first :: t) with
        | none => exact plain t hs ht (ih t.length hlen ht rfl)
        | some p =>
          refine found t p.1 p.2 hs hspanned fun hd => ih (t.drop p.2).length ?_ hd rfl
          rw [List.length_drop]
          omega
      · exact word w t hw hm ht (ih t.length hlen ht rfl)

end Spanned

variable {line : Text}

/-- A line in which the author wrote no tags has none before the rules run. -/
theorem spanned_uncommented (h : Clear line) :
    Spanned tags (uncommented line) ∧ '<' ∉ uncommented line := by
  obtain ⟨rest, hline, _⟩ := dropComment_prefix (shieldEscapes line)
  have hline : shieldEscapes line = uncommented line ++ rest := hline
  have hm := marked_uncommented line
  have hmem : ∀ d ∈ unshield (uncommented line), d ∈ line := by
    intro d hd
    apply Escape.mem_unshield_shieldEscapes
    rw [hline, Escape.unshield_append hm]
    exact List.mem_append_left _ hd
  refine ⟨.of_marked hm ⟨fun hd => h.1 (hmem _ hd), fun hd => h.2 (hmem _ hd)⟩, fun hd => ?_⟩
  have hd : '<' ∈ shieldEscapes line := by
    rw [hline]
    exact List.mem_append_left _ hd
  rcases Escape.mem_shieldEscapes hd with hd | hd | hd
  · exact h.1 hd
  · cases hd
  · cases hd

theorem spanned_codeSpan (h : Spanned [] t) : '<' ∉ t → Spanned [] (Rule.codeSpan.apply t) := by
  have hl := pair?_looksFor '\x60'
  have hfirst : '\x60' ∈ hidden := by decide
  refine Spanned.scan_induction (List.nil_subset _) (pair? '\x60') hfirst
    (motive := fun t => '<' ∉ t → Spanned [] (Rule.codeSpan.apply t)) ?_ ?_ ?_ ?_ h
  · exact fun _ => .nil
  · intro w t hw hm _ ih hlt
    have happly : Rule.codeSpan.apply (w ++ t) = w ++ Rule.codeSpan.apply t :=
      Text.replaceAll_append hl hm t
    rw [happly]
    exact .cons hw (ih fun hm => hlt (List.mem_append_right w hm))
  · intro t hs _ ih hlt
    have happly : Rule.codeSpan.apply ('\x60' :: t) = '\x60' :: Rule.codeSpan.apply t :=
      Text.replaceAll_plain hs
    rw [happly]
    exact .cons (.plain (by decide) (by decide)) (ih fun hm => hlt (List.mem_cons_of_mem _ hm))
  · intro t inner n hs ht ih hlt
    have happly : Rule.codeSpan.apply ('\x60' :: t) = codeHtml inner ++ Rule.codeSpan.apply (t.drop n) :=
      Text.replaceAll_found hs
    obtain ⟨-, rfl, -, rest, rfl⟩ := pair?_eq_some_iff.mp hs
    rw [drop_pair] at ih happly
    have ht := (ht.split_hidden (x := []) (List.nil_subset _) hfirst).2
    obtain ⟨hinner, hrest⟩ := ht.split_hidden (List.nil_subset _) hfirst
    simp only [List.mem_cons, List.mem_append, not_or] at hlt
    rw [happly]
    exact .cons (.code (hinner.marked (List.nil_subset _))
      (hinner.clear (List.nil_subset _) hlt.2.1)) (ih hrest hlt.2.2.2)

end LineMarkup.Inline
