import LineMarkup.Files.Tree
import LineMarkup.Proofs.Template.Location
import LineMarkup.Proofs.Text.Lines

/-!
Paths as texts between slashes, some of them single dots, which lead nowhere. How a path starts is kept
apart from its body; what is taken off the end of a body are slashes and dots only.
-/

namespace LineMarkup

set_option autoImplicit false

namespace Path

open FileTree (partsOf)

/-- All parts are single dots. -/
def OnlyDots (ps : List Text) : Prop := ∀ s ∈ ps, s = ['.']

variable {p q b f : Path}

@[simp] theorem partsOf_nil : partsOf [] = [] := rfl

theorem partsOf_append_cons (a b : Path) : partsOf (a ++ '/' :: b) = partsOf a ++ partsOf b := by
  rw [partsOf, Text.splitOn_append_cons, List.filter_append]
  rfl

theorem partsOf_slash_cons (b : Path) : partsOf ('/' :: b) = partsOf b := partsOf_append_cons [] b

theorem partsOf_slashes_append (k : Nat) (b : Path) :
    partsOf (List.replicate k '/' ++ b) = partsOf b := by
  induction k with
  | zero => rfl
  | succ k ih =>
    rw [List.replicate_succ, List.cons_append, partsOf_slash_cons]
    exact ih

theorem partsOf_of_not_mem (h : '/' ∉ f) (hne : f ≠ []) : partsOf f = [f] := by
  rw [partsOf, Text.splitOn_of_not_mem h]
  simp [hne]

theorem isAbsolute_of_partsOf_eq_nil (hp : partsOf p = []) (hne : p ≠ []) : isAbsolute p = true := by
  cases hcut : Text.cut '/' p with
  | none =>
    rw [partsOf_of_not_mem (Text.cut_eq_none_iff.mp hcut) hne] at hp
    cases hp
  | some pair =>
    obtain ⟨first, rest⟩ := pair
    obtain ⟨rfl, hfirst⟩ := Text.cut_eq_some_iff.mp hcut
    cases first with
    | nil => rfl
    | cons c first =>
      rw [partsOf_append_cons, partsOf_of_not_mem hfirst (List.cons_ne_nil c first)] at hp
      cases hp

theorem OnlyDots.append {ps qs : List Text} (hp : OnlyDots ps) (hq : OnlyDots qs) :
    OnlyDots (ps ++ qs) := List.forall_mem_append.mpr ⟨hp, hq⟩

/-- A body, reversed, whose last part is a name or a double dot, if there is any. -/
def Trimmed (r : Path) : Prop := (∀ r', r ≠ '/' :: r') ∧ r ≠ ['.'] ∧ ∀ r', r ≠ '.' :: '/' :: r'

theorem trimmed_trimReversed (r : Path) : Trimmed (trimReversed r) := by
  induction r using trimReversed.induct with
  | case1 r ih => rwa [trimReversed]
  | case2 => simp [trimReversed, Trimmed]
  | case3 r ih => rwa [trimReversed]
  | case4 r hslash hdot hdots =>
    rw [trimReversed]
    · exact ⟨hslash, hdot, hdots⟩
    · exact hslash
    · exact hdot
    · exact hdots

theorem Trimmed.eq {r : Path} (h : Trimmed r) : trimReversed r = r := by
  obtain ⟨hslash, hdot, hdots⟩ := h
  rw [trimReversed]
  · exact hslash
  · exact hdot
  · exact hdots

theorem trimReversed_suffix (r : Path) : trimReversed r <:+ r := by
  induction r using trimReversed.induct with
  | case1 r ih =>
    rw [trimReversed]
    exact ih.trans (List.suffix_cons '/' r)
  | case2 => exact List.nil_suffix
  | case3 r ih =>
    rw [trimReversed]
    exact ih.trans ((List.suffix_cons '/' r).trans (List.suffix_cons '.' ('/' :: r)))
  | case4 r hslash hdot hdots => exact ⟨[], Trimmed.eq ⟨hslash, hdot, hdots⟩⟩

theorem prefix_trimBody (b : Path) : trimBody b <+: b := by
  have h := List.reverse_prefix.mpr (trimReversed_suffix b.reverse)
  rwa [List.reverse_reverse] at h

theorem partsOf_trimBody (b : Path) :
    ∃ dots, OnlyDots dots ∧ partsOf b = partsOf (trimBody b) ++ dots := by
  have hrev : ∀ r : Path, ∃ dots, OnlyDots dots ∧
      partsOf r.reverse = partsOf (trimReversed r).reverse ++ dots := by
    intro r
    induction r using trimReversed.induct with
    | case1 r ih =>
      rw [trimReversed, List.reverse_cons, partsOf_append_cons, partsOf_nil, List.append_nil]
      exact ih
    | case2 => exact ⟨[['.']], by simp [OnlyDots], rfl⟩
    | case3 r ih =>
      obtain ⟨dots, hdots, hr⟩ := ih
      refine ⟨dots ++ [['.']], hdots.append (by simp [OnlyDots]), ?_⟩
      rw [trimReversed, List.reverse_cons, List.reverse_cons, List.append_assoc, List.singleton_append,
        partsOf_append_cons, hr, List.append_assoc]
      rfl
    | case4 r hslash hdot hdots =>
      refine ⟨[], List.forall_mem_nil _, ?_⟩
      rw [Trimmed.eq ⟨hslash, hdot, hdots⟩, List.append_nil]
  have h := hrev b.reverse
  rwa [List.reverse_reverse] at h

/-- A body falls into what stands up to its last slash and what stands after it. -/
theorem beside_beforeLast (b : Path) :
    b = beforeLast b ++ lastPart b ∧ '/' ∉ lastPart b ∧
      (beforeLast b = [] ∨ (beforeLast b).getLast? = some '/') := by
  have hb : b = beforeLast b ++ lastPart b := by
    rw [beforeLast, lastPart, ← List.reverse_append, List.takeWhile_append_dropWhile,
      List.reverse_reverse]
  obtain ⟨dir, hdir⟩ := Template.exists_beside (some b)
  have hfolder : beforeLast b = dir := Template.folder_eq hdir
  obtain ⟨file, hfile, hslash, hlast⟩ := hdir
  rw [← hfolder] at hfile hlast
  rw [List.append_cancel_left (hb.symm.trans hfile)]
  exact ⟨hfile, hslash, hlast⟩

theorem lastPart_ne_nil_of_last (hne : b ≠ []) (hslash : b.getLast? ≠ some '/') : lastPart b ≠ [] := by
  intro hlast
  obtain ⟨hb, _, hends⟩ := beside_beforeLast b
  rw [hlast, List.append_nil] at hb
  rw [← hb] at hends
  exact hends.elim hne hslash

theorem lastPart_ne_nil (h : Trimmed b.reverse) (hne : b ≠ []) : lastPart b ≠ [] := by
  cases hr : b.reverse with
  | nil => exact absurd (List.reverse_eq_nil_iff.mp hr) hne
  | cons c r =>
    have hc : c ≠ '/' := fun hc => h.1 r (by rw [hr, hc])
    rw [lastPart, hr, List.takeWhile_cons_of_pos (by simpa using hc)]
    simp

theorem trimmed_of_lastPart (hne : lastPart b ≠ []) (hdot : lastPart b ≠ ['.']) :
    Trimmed b.reverse := by
  refine ⟨fun r hr => hne ?_, fun hr => hdot ?_, fun r hr => hdot ?_⟩
  · rw [lastPart, hr]
    rfl
  · rw [lastPart, hr]
    rfl
  · rw [lastPart, hr]
    rfl

theorem start_cases (p : Path) :
    (start p = ['/'] ∧ p = '/' :: body p) ∨
    (start p = ['.'] ∧ p = '.' :: body p ∧ (body p = [] ∨ (body p).head? = some '/')) ∨
    (start p = [] ∧ body p = p ∧ (∀ r, p ≠ '/' :: r) ∧ p ≠ ['.'] ∧ ∀ r, p ≠ '.' :: '/' :: r) := by
  unfold body start
  split
  next => exact Or.inl ⟨rfl, rfl⟩
  next => exact Or.inr (Or.inl ⟨rfl, rfl, Or.inl rfl⟩)
  next => exact Or.inr (Or.inl ⟨rfl, rfl, Or.inr rfl⟩)
  next hslash hdot hdots => exact Or.inr (Or.inr ⟨rfl, rfl, hslash, hdot, hdots⟩)

theorem start_eq_nil_iff :
    start p = [] ↔ (∀ r, p ≠ '/' :: r) ∧ p ≠ ['.'] ∧ ∀ r, p ≠ '.' :: '/' :: r := by
  rcases start_cases p with ⟨hs, hp⟩ | ⟨hs, hp, hb⟩ | ⟨hs, _, h⟩
  · exact ⟨fun h => (by cases hs.symm.trans h), fun h => absurd hp (h.1 _)⟩
  · refine ⟨fun h => (by cases hs.symm.trans h), fun h => ?_⟩
    rcases hb with hb | hb
    · exact absurd (hp.trans (congrArg ('.' :: ·) hb)) h.2.1
    · obtain ⟨r, hr⟩ := List.head?_eq_some_iff.mp hb
      exact absurd (hp.trans (congrArg ('.' :: ·) hr)) (h.2.2 r)
  · exact ⟨fun _ => h, fun _ => hs⟩

theorem start_append_body (p : Path) : start p ++ body p = p := by
  rcases start_cases p with ⟨hs, hp⟩ | ⟨hs, hp, _⟩ | ⟨hs, hp, _⟩
  · rw [hs]
    exact hp.symm
  · rw [hs]
    exact hp.symm
  · rw [hs]
    exact hp

theorem body_eq_self (h : start p = []) : body p = p := by
  have hp := start_append_body p
  rwa [h] at hp

theorem partsOf_start_append {x : Path} (hx : x <+: body p) :
    partsOf (start p ++ x) = partsOf (start p) ++ partsOf x := by
  rcases start_cases p with ⟨hs, _⟩ | ⟨hs, _, hb⟩ | ⟨hs, _⟩
  · rw [hs]
    exact partsOf_slash_cons x
  · rw [hs]
    cases x with
    | nil => rfl
    | cons c x =>
      obtain ⟨rest, hrest⟩ := hx
      rw [← hrest] at hb
      obtain rfl : c = '/' := by simpa using hb
      rw [partsOf_slash_cons]
      exact partsOf_append_cons ['.'] x
  · rw [hs]
    rfl

theorem partsOf_append_of_slash (h : q = [] ∨ q.getLast? = some '/') (x : Path) :
    partsOf (q ++ x) = partsOf q ++ partsOf x := by
  rcases h with rfl | h
  · rfl
  · obtain ⟨d, rfl⟩ := List.getLast?_eq_some_iff.mp h
    rw [List.append_assoc, List.singleton_append, partsOf_append_cons, partsOf_append_cons, partsOf_nil,
      List.append_nil]

theorem partsOf_eq_core (p : Path) :
    ∃ dots, OnlyDots dots ∧ partsOf p = partsOf (start p) ++ (partsOf (core p) ++ dots) := by
  obtain ⟨dots, hdots, hbody⟩ := partsOf_trimBody (body p)
  have hp := partsOf_start_append (p := p) List.prefix_rfl
  rw [start_append_body, hbody] at hp
  exact ⟨dots, hdots, hp⟩

theorem onlyDots_start (p : Path) : OnlyDots (partsOf (start p)) := by
  rcases start_cases p with ⟨hs, _⟩ | ⟨hs, _⟩ | ⟨hs, _⟩
  · rw [hs]
    exact List.forall_mem_nil _
  · rw [hs]
    exact List.forall_mem_singleton.mpr rfl
  · rw [hs]
    exact List.forall_mem_nil _

end Path

end LineMarkup
