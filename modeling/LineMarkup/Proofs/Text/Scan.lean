import LineMarkup.Text.Pieces

/-!
Scans from left to right: induction along a scan, the places at which a scan looks for a find, and
the texts that a scan passes over unchanged.
-/

namespace LineMarkup.Text

set_option autoImplicit false

variable {α : Type} {site : Site α} {f : α → Text}

/-- Induction along a scan, from one find to the next. -/
theorem scan_induction (site : Site α) {motive : Text → Prop} (nil : motive [])
    (plain : ∀ c r, site (c :: r) = none → motive r → motive (c :: r))
    (found : ∀ c r a n, site (c :: r) = some (a, n) → motive (r.drop n) → motive (c :: r))
    (t : Text) : motive t := by
  induction hn : t.length using Nat.strongRecOn generalizing t with
  | ind n ih =>
    cases t with
    | nil => exact nil
    | cons c r =>
      have hr : r.length < n := by simp [← hn]
      cases hs : site (c :: r) with
      | none => exact plain c r hs (ih r.length hr r rfl)
      | some p =>
        obtain ⟨a, k⟩ := p
        have hk : (r.drop k).length < n := by rw [List.length_drop]; omega
        exact found c r a k hs (ih (r.drop k).length hk (r.drop k) rfl)

theorem replaceAll_plain {c : Char} {r : Text} (h : site (c :: r) = none) :
    replaceAll site f (c :: r) = c :: replaceAll site f r := by
  rw [replaceAll_cons, h]

theorem replaceAll_found {c : Char} {r : Text} {a : α} {n : Nat} (h : site (c :: r) = some (a, n)) :
    replaceAll site f (c :: r) = f a ++ replaceAll site f (r.drop n) := by
  rw [replaceAll_cons, h]

theorem replaceAll_ne_nil (hf : ∀ a, f a ≠ []) {t : Text} (ht : t ≠ []) :
    replaceAll site f t ≠ [] := by
  obtain ⟨c, r, rfl⟩ := List.exists_cons_of_ne_nil ht
  cases hs : site (c :: r) with
  | none =>
    rw [replaceAll_plain hs]
    exact List.cons_ne_nil _ _
  | some p =>
    rw [replaceAll_found hs]
    exact List.append_ne_nil_of_left_ne_nil (hf p.1) _

/-- A site that looks at the first character and finds nothing unless it is `first`. -/
def LooksFor (site : Site α) (first : Char) : Prop := ∀ c r, c ≠ first → site (c :: r) = none

theorem replaceAll_append {first : Char} (h : LooksFor site first) {w : Text} (hw : first ∉ w)
    (t : Text) : replaceAll site f (w ++ t) = w ++ replaceAll site f t := by
  induction w with
  | nil => rfl
  | cons c w ih =>
    rw [List.mem_cons, not_or] at hw
    rw [List.cons_append, replaceAll_plain (h c _ (Ne.symm hw.1)), ih hw.2, List.cons_append]

theorem pieces_append {first : Char} (h : LooksFor site first) {w : Text} (hw : first ∉ w) (t : Text) :
    pieces site (w ++ t) = w.map .plain ++ pieces site t := by
  induction w with
  | nil => rfl
  | cons c w ih =>
    rw [List.mem_cons, not_or] at hw
    have hs : site (c :: (w ++ t)) = none := h c _ (Ne.symm hw.1)
    rw [List.cons_append, pieces_cons, hs, ih hw.2]
    rfl

theorem found_mem_pieces_append {first : Char} (h : LooksFor site first) {w : Text} (hw : first ∉ w)
    {a : α} {t : Text} : .found a ∈ pieces site (w ++ t) ↔ .found a ∈ pieces site t := by
  simp [pieces_append h hw]

theorem mem_of_plain_mem_pieces {t : Text} {c : Char} (h : .plain c ∈ pieces site t) : c ∈ t := by
  induction t using scan_induction site with
  | nil => exact absurd h List.not_mem_nil
  | plain d r hs ih =>
    rw [pieces_cons, hs] at h
    rcases List.mem_cons.mp h with he | h
    · cases he
      exact List.mem_cons_self
    · exact List.mem_cons_of_mem d (ih h)
  | found d r a n hs ih =>
    rw [pieces_cons, hs] at h
    rcases List.mem_cons.mp h with he | h
    · cases he
    · exact List.mem_cons_of_mem d (List.mem_of_mem_drop (ih h))

theorem replaceAll_eq_self {t : Text} (h : ∀ before c after, t = before ++ c :: after →
    site (c :: after) = none) : replaceAll site f t = t := by
  induction t with
  | nil => rfl
  | cons c r ih =>
    rw [replaceAll_plain (h [] c r rfl)]
    rw [ih fun before d after he => h (c :: before) d after (by rw [he]; rfl)]

theorem forall_mem_replaceAll {P : Char → Prop} {t : Text} (ht : ∀ d ∈ t, P d)
    (hf : ∀ c r a n, site (c :: r) = some (a, n) → (∀ d ∈ c :: r, P d) → ∀ d ∈ f a, P d) :
    ∀ d ∈ replaceAll site f t, P d := by
  induction t using scan_induction site with
  | nil => simp
  | plain c r hs ih =>
    rw [replaceAll_plain hs]
    intro d hd
    rcases List.mem_cons.mp hd with rfl | hd
    · exact ht d List.mem_cons_self
    · exact ih (fun x hx => ht x (List.mem_cons_of_mem c hx)) d hd
  | found c r a n hs ih =>
    rw [replaceAll_found hs]
    intro d hd
    rcases List.mem_append.mp hd with hd | hd
    · exact hf c r a n hs ht d hd
    · exact ih (fun x hx => ht x (List.mem_cons_of_mem c (List.mem_of_mem_drop hx))) d hd

def placesFrom (site : Site α) : Nat → Text → List Text
  | _, [] => []
  | n + 1, _ :: r => placesFrom site n r
  | 0, c :: r =>
    (c :: r) :: match site (c :: r) with
      | some (_, n) => placesFrom site n r
      | none => placesFrom site 0 r

/-- What a text still holds at each place where a scan looks for a find, which is at every character
that no earlier find has taken. -/
def places (site : Site α) (t : Text) : List Text := placesFrom site 0 t

theorem placesFrom_eq_drop (site : Site α) (n : Nat) (t : Text) :
    placesFrom site n t = places site (t.drop n) := by
  induction n generalizing t with
  | zero => rfl
  | succ n ih =>
    cases t with
    | nil => rfl
    | cons c r => simp [placesFrom, ih]

theorem places_plain {c : Char} {r : Text} (h : site (c :: r) = none) :
    places site (c :: r) = (c :: r) :: places site r := by
  rw [places, placesFrom, h]
  rfl

theorem places_found {c : Char} {r : Text} {a : α} {n : Nat} (h : site (c :: r) = some (a, n)) :
    places site (c :: r) = (c :: r) :: places site (r.drop n) := by
  rw [places, placesFrom, h, ← placesFrom_eq_drop]

end LineMarkup.Text
