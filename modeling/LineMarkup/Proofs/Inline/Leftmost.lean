import LineMarkup.Proofs.Inline.Site
import LineMarkup.Proofs.Text.Tokens

/-!
The rules for pairs and links, read from the left. Of the marks of a text the 1st, 3rd, 5th and so on
open, if there is a later one, and the 2nd, 4th and so on close. A link is what the first bracket
starts that can start one; brackets that cannot are passed over.
-/

namespace LineMarkup

set_option autoImplicit false

/-- Writes a text that follows `before` character by character, each with what stands before it and
after it in view. -/
def Text.rewriteFrom (f : Text → Char → Text → Text) (before : Text) : Text → Text
  | [] => []
  | c :: r => f before c r ++ rewriteFrom f (before ++ [c]) r

def Text.rewriteEach (f : Text → Char → Text → Text) (t : Text) : Text := rewriteFrom f [] t

namespace Inline

open Text (Begins NoneWithin CutFromLeft Recognizes Piece rewriteFrom rewriteEach)

/-- What becomes of a character between `before` and `after`: an odd mark opens if there is a later one,
an even mark closes, and between the two marks `inner` is written for every character. -/
def pairTag (mark : Char) (opening closing : Text) (inner : Char → Char)
    (before : Text) (c : Char) (after : Text) : Text :=
  if c = mark then
    if before.count mark % 2 = 1 then closing
    else if mark ∈ after then opening
    else [c]
  else if before.count mark % 2 = 1 ∧ mark ∈ after then [inner c]
  else [c]

section Pairs
variable {mark : Char} {opening closing : Text} {inner : Char → Char} {before : Text}

/-- Without a later mark nothing is changed, whatever stood before. -/
theorem rewriteFrom_pairTag_of_not_mem {t : Text} (ht : mark ∉ t) :
    rewriteFrom (pairTag mark opening closing inner) before t = t := by
  induction t generalizing before with
  | nil => rfl
  | cons c r ih =>
    rw [List.mem_cons, not_or] at ht
    have hc : pairTag mark opening closing inner before c r = [c] := by
      rw [pairTag, if_neg (Ne.symm ht.1), if_neg fun h => ht.2 h.2]
    rw [rewriteFrom, hc, ih ht.2, List.singleton_append]

/-- After an odd number of marks all is inside of a pair up to the next one. -/
theorem rewriteFrom_pairTag_inside (hb : before.count mark % 2 = 1) {text : Text}
    (ht : mark ∉ text) (rest : Text) :
    rewriteFrom (pairTag mark opening closing inner) before (text ++ mark :: rest) =
      text.map inner ++ closing ++
        rewriteFrom (pairTag mark opening closing inner) (before ++ (text ++ [mark])) rest := by
  induction text generalizing before with
  | nil =>
    rw [List.nil_append, rewriteFrom, pairTag, if_pos rfl, if_pos hb]
    rfl
  | cons c text ih =>
    rw [List.mem_cons, not_or] at ht
    have hc : pairTag mark opening closing inner before c (text ++ mark :: rest) = [inner c] := by
      rw [pairTag, if_neg (Ne.symm ht.1), if_pos ⟨hb, by simp⟩]
    have hb' : (before ++ [c]).count mark % 2 = 1 := by
      rwa [List.count_append, List.count_singleton, if_neg (by simpa using Ne.symm ht.1)]
    rw [List.cons_append, rewriteFrom, hc, ih hb' ht.2]
    simp

/-- Pairs that are found one after the other are the odd marks with the even ones after them. -/
theorem replaceAll_pair_eq_rewriteFrom (hb : before.count mark % 2 = 0) (t : Text) :
    Text.replaceAll (pair? mark) (fun text => opening ++ text.map inner ++ closing) t =
      rewriteFrom (pairTag mark opening closing inner) before t := by
  induction t using Text.scan_induction (pair? mark) generalizing before with
  | nil => rfl
  | plain c r hs ih =>
    rw [Text.replaceAll_plain hs, rewriteFrom]
    by_cases hc : c = mark
    · subst hc
      have hr : c ∉ r := pair?_eq_none_iff.mp hs
      have htag : pairTag c opening closing inner before c r = [c] := by
        rw [pairTag, if_pos rfl, if_neg (by omega), if_neg hr]
      rw [htag, replaceAll_pair_eq_self hr, rewriteFrom_pairTag_of_not_mem hr,
        List.singleton_append]
    · have htag : pairTag mark opening closing inner before c r = [c] := by
        rw [pairTag, if_neg hc, if_neg (by omega)]
      have hb' : (before ++ [c]).count mark % 2 = 0 := by
        rwa [List.count_append, List.count_singleton, if_neg (by simpa using hc)]
      rw [htag, ih hb', List.singleton_append]
  | found c r text n hs ih =>
    obtain ⟨rfl, rfl, ht, rest, rfl⟩ := pair?_eq_some_iff.mp hs
    rw [drop_pair] at ih
    have htag : pairTag c opening closing inner before c (text ++ c :: rest) = opening := by
      rw [pairTag, if_pos rfl, if_neg (by omega), if_pos (by simp)]
    have hodd : (before ++ [c]).count c % 2 = 1 := by
      rw [List.count_append, List.count_singleton_self]
      omega
    have heven : (before ++ [c] ++ (text ++ [c])).count c % 2 = 0 := by
      rw [List.count_append, List.count_append, List.count_append,
        List.count_eq_zero_of_not_mem ht, List.count_singleton_self]
      omega
    rw [Text.replaceAll_found hs, drop_pair, ih heven, rewriteFrom, htag,
      rewriteFrom_pairTag_inside hodd ht]
    simp

end Pairs

/-- A link as it is written in a line. -/
def Link.source (l : Link) : Text := '[' :: (l.label ++ ']' :: '(' :: (l.target ++ [')']))

/-- The label ends at the first bracket after it and the target at the first parenthesis; neither of
them is empty. -/
def Link.IsWhole (l : Link) : Prop :=
  l.label ≠ [] ∧ ']' ∉ l.label ∧ l.target ≠ [] ∧ ')' ∉ l.target

theorem recognizes_link : Recognizes link? Link.source Link.IsWhole where
  ne_nil _ := List.cons_ne_nil _ _
  find l rest h := by
    obtain ⟨hl, hb, ht, hp⟩ := h
    rw [link?_eq_some_iff]
    refine ⟨?_, ht, hp, rest, ?_, hl, hb⟩
    · simp [Link.source]
      omega
    · simp [Link.source]
  begins t l n h := by
    obtain ⟨_, ht, hp, rest, he, hl, hb⟩ := link?_eq_some_iff.mp h
    exact ⟨⟨hl, hb, ht, hp⟩, rest, by rw [he]; simp [Link.source]⟩

/-- The rules do what they say from the left: stars and backticks by their number, and links one after
the other, the first that starts in what the ones before it have left. -/
theorem rules_from_left (t : Text) :
    Rule.emphasis.apply t = rewriteEach (pairTag '*' "<em>".toList "</em>".toList id) t ∧
    Rule.codeSpan.apply t =
      rewriteEach (pairTag '\x60' "<code>".toList "</code>".toList Escape.shield) t ∧
    ∃ ps, (∀ qs, CutFromLeft Link.source Link.IsWhole t qs ↔ qs = ps) ∧
      Rule.link.apply t = ps.flatMap (Piece.write Link.html) := by
  refine ⟨?_, ?_, Text.pieces link? t, fun _ => recognizes_link.cutFromLeft_iff, rfl⟩
  · have h : Text.replaceAll (pair? '*') (fun text =>
        "<em>".toList ++ text.map id ++ "</em>".toList) t =
        rewriteEach (pairTag '*' "<em>".toList "</em>".toList id) t :=
      replaceAll_pair_eq_rewriteFrom rfl t
    simp only [List.map_id] at h
    exact h
  · exact replaceAll_pair_eq_rewriteFrom rfl t

/-- The first bracket has no label; the second one takes the third into its target. -/
example : Rule.link.apply "[](x)[a]([b](c)".toList = "[](x)<a href=\"[b](c\">a</a>".toList := by
  decide

end Inline

end LineMarkup
