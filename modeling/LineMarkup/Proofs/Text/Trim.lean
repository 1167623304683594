import LineMarkup.Text.Space

/-!
Trimming, around a character that is not white space.
-/

namespace LineMarkup.Text

set_option autoImplicit false

variable {p : Char → Bool} {c : Char}

theorem dropWhile_append_cons (hc : p c = false) (x y : Text) :
    List.dropWhile p (x ++ c :: y) = List.dropWhile p x ++ c :: y := by
  induction x with
  | nil => simp [hc]
  | cons a x ih =>
    cases ha : p a with
    | true => simpa [ha] using ih
    | false => simp [ha]

theorem takeWhile_append_cons (hc : p c = false) (x y : Text) :
    List.takeWhile p (x ++ c :: y) = List.takeWhile p x := by
  induction x with
  | nil => simp [hc]
  | cons a x ih =>
    cases ha : p a with
    | true => simpa [ha] using ih
    | false => simp [ha]

section Runs
variable {α : Type} {q : α → Bool} {x y : List α} (hx : ∀ a ∈ x, q a = true)
  (hy : ∀ a ∈ y.head?, q a = false)
include hx hy

theorem dropWhile_append_of_head : (x ++ y).dropWhile q = y := by
  rw [List.dropWhile_append_of_pos hx]
  cases y with
  | nil => rfl
  | cons a y => exact List.dropWhile_cons_of_neg (by simp [hy a rfl])

theorem takeWhile_append_of_head : (x ++ y).takeWhile q = x := by
  rw [List.takeWhile_append_of_pos hx]
  cases y with
  | nil => exact List.append_nil x
  | cons a y => rw [List.takeWhile_cons_of_neg (by simp [hy a rfl]), List.append_nil]

end Runs

theorem forall_head?_dropWhile (p : Char → Bool) (t : Text) :
    ∀ c ∈ (t.dropWhile p).head?, p c = false := by
  intro c hc
  have hhead := List.head?_dropWhile_not p t
  rw [hc] at hhead
  simpa using hhead

theorem trimStart_append_cons (hc : isSpace c = false) (x y : Text) :
    trimStart (x ++ c :: y) = trimStart x ++ c :: y :=
  dropWhile_append_cons hc x y

theorem trimEnd_cons (hc : isSpace c = false) (t : Text) :
    trimEnd (c :: t) = c :: trimEnd t := by
  rw [trimEnd, List.reverse_cons, dropWhile_append_cons hc, List.reverse_append, trimEnd]
  rfl

theorem trimEnd_append_cons (hc : isSpace c = false) (x y : Text) :
    trimEnd (x ++ c :: y) = x ++ c :: trimEnd y := by
  rw [trimEnd, List.reverse_append, List.reverse_cons, List.append_assoc, List.singleton_append,
    dropWhile_append_cons hc, trimEnd]
  simp

theorem trim_append_cons {x : Text} (hx : ∀ d ∈ x, isSpace d = true) (hc : isSpace c = false)
    (y : Text) : trim (x ++ c :: y) = c :: trimEnd y := by
  have hnil : List.dropWhile isSpace (x ++ []) = [] := List.dropWhile_append_of_pos hx
  rw [List.append_nil] at hnil
  rw [trim, trimStart_append_cons hc, trimStart, hnil, List.nil_append, trimEnd_cons hc]

theorem exists_of_trim_ne_nil {t : Text} (h : trim t ≠ []) :
    ∃ x c y, t = x ++ c :: y ∧ (∀ d ∈ x, isSpace d = true) ∧ isSpace c = false := by
  have hs : trimStart t ≠ [] := by
    intro he
    apply h
    rw [trim, he]
    rfl
  obtain ⟨c, y, hy⟩ := List.exists_cons_of_ne_nil hs
  refine ⟨t.takeWhile isSpace, c, y, ?_, List.all_eq_true.mp List.all_takeWhile, ?_⟩
  · rw [← hy]
    exact List.takeWhile_append_dropWhile.symm
  · have hd := List.head_dropWhile_not isSpace hs
    rw [trimStart] at hy
    simpa only [hy, List.head_cons] using hd

end LineMarkup.Text
