import LineMarkup.Proofs.Inline.Marked
import LineMarkup.Proofs.Inline.Veil
import LineMarkup.Proofs.Text.Trim

/-!
Texts that part at a character that neither headings nor unshielding can take away. Where a veil hides
a parenthesis from the target of a link, making the links before and after it parts in this way.
-/

namespace LineMarkup.Inline

set_option autoImplicit false

open Escape (Marked isReserved)

def IsSolid (c : Char) : Prop := Text.isSpace c = false ∧ c ≠ '#' ∧ isReserved c = false

/-- After what they have in common both texts go on, and with different characters. -/
def Diverge (a b : Text) : Prop :=
  ∃ p d e x y, a = p ++ d :: x ∧ b = p ++ e :: y ∧ d ≠ e ∧ IsSolid d ∧ IsSolid e

variable {a b p x : Text} {d : Char}

theorem Diverge.append_left (h : Diverge a b) (w : Text) : Diverge (w ++ a) (w ++ b) := by
  obtain ⟨p, d, e, x, y, rfl, rfl, hne, hd, he⟩ := h
  exact ⟨w ++ p, d, e, x, y, by rw [List.append_assoc], by rw [List.append_assoc], hne, hd, he⟩

theorem unshield_append_cons (hd : IsSolid d) (h : Marked (p ++ d :: x)) :
    Escape.unshield (p ++ d :: x) = Escape.unshield p ++ d :: Escape.unshield x := by
  have hp := (h.split hd.2.2).1
  rw [Escape.unshield_append hp, Escape.unshield_cons (Escape.ne_literalMark hd.2.2),
    Escape.unshieldChar_eq_self hd.2.2]

theorem Diverge.unshield_ne (h : Diverge a b) (ha : Marked a) (hb : Marked b) :
    Escape.unshield a ≠ Escape.unshield b := by
  obtain ⟨p, d, e, x, y, rfl, rfl, hne, hd, he⟩ := h
  rw [unshield_append_cons hd ha, unshield_append_cons he hb]
  intro heq
  exact hne (List.cons.inj (List.append_cancel_left heq)).1

theorem headingMarks_append_cons (hd : IsSolid d) (p x : Text) :
    headingMarks (p ++ d :: x) = headingMarks p := by
  rw [headingMarks, Text.trimStart_append_cons hd.1,
    Text.takeWhile_append_cons (decide_eq_false hd.2.1), headingMarks]

theorem headingTitle_append_cons (hd : IsSolid d) (p x : Text) :
    headingTitle (p ++ d :: x) = headingTitle p ++ d :: x := by
  rw [headingTitle, Text.trimStart_append_cons hd.1,
    Text.dropWhile_append_cons (decide_eq_false hd.2.1), Text.trimStart_append_cons hd.1,
    headingTitle]

/-- What a rule for headings writes around a text is settled before the first solid character. -/
theorem wrapHeading_append_cons (hd : IsSolid d) (hn : '\n' ∉ p ++ d :: x) :
    wrapHeading (p ++ d :: x) =
      if headingMarks p = [] then p ++ d :: x
      else openHeading p ++ headingTitle p ++ d :: (x ++ closeHeading p) := by
  by_cases hm : headingMarks p = []
  · rw [if_pos hm]
    exact wrapHeading_of_plain (Or.inl (by rwa [headingMarks_append_cons hd]))
  · have hmarks : headingMarks (p ++ d :: x) ≠ [] := by rwa [headingMarks_append_cons hd]
    have htitle : '\n' ∉ headingTitle (p ++ d :: x) :=
      fun ht => hn ((headingTitle_sublist _).subset ht)
    have hlevel : headingLevel (p ++ d :: x) = headingLevel p := by
      rw [headingLevel, headingMarks_append_cons hd, headingLevel]
    rw [if_neg hm, wrapHeading_of_marks hmarks htitle, headingTitle_append_cons hd, openHeading,
      closeHeading, hlevel]
    simp [openHeading, closeHeading]

theorem Diverge.wrapHeading (h : Diverge a b) (ha : '\n' ∉ a) (hb : '\n' ∉ b) :
    Diverge (wrapHeading a) (wrapHeading b) := by
  obtain ⟨p, d, e, x, y, rfl, rfl, hne, hd, he⟩ := h
  rw [wrapHeading_append_cons hd ha, wrapHeading_append_cons he hb]
  by_cases hm : headingMarks p = []
  · rw [if_pos hm, if_pos hm]
    exact ⟨p, d, e, x, y, rfl, rfl, hne, hd, he⟩
  · rw [if_neg hm, if_neg hm]
    exact ⟨_, d, e, _, _, rfl, rfl, hne, hd, he⟩

theorem Link.html_append (label target rest : Text) :
    Link.html ⟨label, target⟩ ++ rest =
      "<a href=\"".toList ++ target ++ '"' :: '>' :: (label ++ ("</a>".toList ++ rest)) := by
  have hend : "\">".toList = ['"', '>'] := by decide
  have happ : ∀ a b z : Text, a ++ target ++ ('"' :: b) ++ label ++ z ++ rest =
      a ++ target ++ '"' :: (b ++ (label ++ (z ++ rest))) := by
    intro a b z
    simp
  exact (congrArg (fun q => "<a href=\"".toList ++ target ++ q ++ label ++ "</a>".toList ++ rest)
    hend).trans (happ _ _ _)

namespace Veil
variable {φ : Char → Text} (hφ : Veil φ)
include hφ

theorem head_ne_paren {c : Char} (hc : c ≠ ')') : ∃ d r, φ c = d :: r ∧ d ≠ ')' := by
  cases hn : isNeutral c with
  | true =>
    obtain ⟨d, r, hd, _, hp, _⟩ := hφ.head c hn
    exact ⟨d, r, hd, hp⟩
  | false => exact ⟨c, [], hφ.keeps c hn, hc⟩

theorem target_ne_nil {e : Char} {rest target tail : Text} (he : e ∈ rest.takeWhile (· ≠ ')'))
    (ht : rest.flatMap φ = target ++ ')' :: tail) : target ≠ [] := by
  rintro rfl
  cases rest with
  | nil => simp at he
  | cons f rest =>
    have hf : f ≠ ')' := by
      rintro rfl
      simp at he
    obtain ⟨g, s, hg, hgp⟩ := hφ.head_ne_paren hf
    rw [List.flatMap_cons, hg] at ht
    exact hgp (List.cons.inj ht).1

section Opened
variable {c e : Char} {r label rest : Text} (ho : Opens (c :: r) label rest)
  (he : e ∈ rest.takeWhile (· ≠ ')')) (hp : ')' ∈ φ e)
include ho he hp

theorem diverge_of_unclosed (hcut : Text.cut ')' rest = none) :
    Diverge (Rule.link.apply ((c :: r).flatMap φ)) ((Rule.link.apply (c :: r)).flatMap φ) := by
  have hnone : link? (c :: r) = none := by
    cases hl : link? (c :: r) with
    | none => rfl
    | some found =>
      obtain ⟨_, _, _, after, hopens⟩ := link?_eq_some_iff.mp hl
      have hrest := (ho.unique hopens).2
      exact absurd (by rw [hrest]; simp) (Text.cut_eq_none_iff.mp hcut)
  have hm : ')' ∈ rest.flatMap φ := List.mem_flatMap.mpr ⟨e, List.takeWhile_subset _ he, hp⟩
  obtain ⟨target, tail, ht, htp⟩ := List.eq_append_cons_of_mem hm
  have ho' := hφ.opens_flatMap ho
  rw [ht] at ho'
  obtain rfl : c = '[' := (List.cons.inj ho.1).1
  rw [ho'.apply_link (hφ.target_ne_nil he ht) htp, apply_link_plain hnone, List.flatMap_cons, hφ.opening.same]
  refine ⟨[], '<', '[', _, _, rfl, rfl, by decide, ?_, ?_⟩
  · exact ⟨by decide, by decide, by decide⟩
  · exact ⟨by decide, by decide, by decide⟩

theorem diverge_of_closed {target tail : Text} (hcut : Text.cut ')' rest = some (target, tail)) :
    Diverge (Rule.link.apply ((c :: r).flatMap φ)) ((Rule.link.apply (c :: r)).flatMap φ) := by
  obtain ⟨rfl, htp⟩ := Text.cut_eq_some_iff.mp hcut
  have hpos : ∀ f ∈ target, decide (f ≠ ')') = true := by
    intro f hf
    apply decide_eq_true
    rintro rfl
    exact htp hf
  have het : e ∈ target := by
    rw [List.takeWhile_append_of_pos hpos, List.takeWhile_cons_of_neg (by simp),
      List.append_nil] at he
    exact he
  have hm : ')' ∈ target.flatMap φ := List.mem_flatMap.mpr ⟨e, het, hp⟩
  obtain ⟨short, more, hshort, hsp⟩ := List.eq_append_cons_of_mem hm
  have hrest : (target ++ ')' :: tail).flatMap φ =
      short ++ ')' :: (more ++ ')' :: tail.flatMap φ) := by
    rw [List.flatMap_append, List.flatMap_cons, hφ.paren, hshort]
    simp
  have ho' := hφ.opens_flatMap ho
  rw [hrest] at ho'
  have hlong : ∀ a z : Text, a ++ (short ++ ')' :: more) ++ z = a ++ short ++ ')' :: (more ++ z) := by
    intro a z
    simp
  rw [ho'.apply_link (hφ.target_ne_nil he hrest) hsp, ho.apply_link (List.ne_nil_of_mem het) htp,
    List.flatMap_append, hφ.link_html, hshort, Link.html_append, Link.html_append, hlong]
  refine ⟨_, '"', ')', _, _, rfl, rfl, by decide, ?_, ?_⟩
  · exact ⟨by decide, by decide, by decide⟩
  · exact ⟨by decide, by decide, by decide⟩

end Opened

/-- Links come out different if a target is ended early at a place where one is looked for. -/
theorem link_diverge {t : Text} (hk : ¬ ∀ u ∈ Text.places link? t, KeepsTarget φ u) :
    Diverge (Rule.link.apply (t.flatMap φ)) ((Rule.link.apply t).flatMap φ) := by
  have here : ∀ c r, ¬ KeepsTarget φ (c :: r) →
      Diverge (Rule.link.apply ((c :: r).flatMap φ)) ((Rule.link.apply (c :: r)).flatMap φ) := by
    intro c r hnot
    simp only [KeepsTarget, Classical.not_forall, Decidable.not_not] at hnot
    obtain ⟨label, rest, ho, e, he, hp⟩ := hnot
    cases hcut : Text.cut ')' rest with
    | none => exact hφ.diverge_of_unclosed ho he hp hcut
    | some cuts => exact hφ.diverge_of_closed ho he hp hcut
  induction t using Text.scan_induction link? with
  | nil => exact absurd (fun u hu => absurd hu List.not_mem_nil) hk
  | plain c r hs ih =>
    by_cases hc : KeepsTarget φ (c :: r)
    · rw [hφ.link_plain hc hs, apply_link_plain hs, List.flatMap_cons]
      rw [Text.places_plain hs, List.forall_mem_cons] at hk
      exact (ih fun h => hk ⟨hc, h⟩).append_left _
    · exact here c r hc
  | found c r l n hs ih =>
    by_cases hc : KeepsTarget φ (c :: r)
    · rw [hφ.link_found hc hs, apply_link_found hs, List.flatMap_append]
      rw [Text.places_found hs, List.forall_mem_cons] at hk
      exact (ih fun h => hk ⟨hc, h⟩).append_left _
    · exact here c r hc

end Veil

end LineMarkup.Inline
