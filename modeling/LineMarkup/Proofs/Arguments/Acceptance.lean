import LineMarkup.Proofs.Arguments.Spelling

/-!
Which command lines are accepted. A line that can be read is refused only for the values that it gives:
one that its switch does not take, or a second one for a switch that takes no more. Where and how the
values stand in the line makes no difference.
-/

namespace LineMarkup.Arguments

set_option autoImplicit false

variable {κ : Type}

namespace Level

/-- What the values for a key have to be. -/
def Checks (level : Level κ) (key : κ) (check : Check) : Prop :=
  (∃ w ∈ level.switches, ∃ repeats, w.use = .value key repeats check) ∨
    level.operands = some (key, check)

/-- A key that is given at most once. -/
def Single (level : Level κ) (key : κ) : Prop :=
  ∃ w ∈ level.switches, w.use = .flag key ∨ ∃ check, w.use = .value key false check

variable [DecidableEq κ]

/-- No value is refused. -/
structure Admits (level : Level κ) (given : List (κ × Text)) : Prop where
  checked : ∀ key check, level.Checks key check → ∀ v, (key, v) ∈ given → check v = none
  single : ∀ key, level.Single key → (given.countP fun g => g.1 = key) ≤ 1

theorem Admits.of_sublist {level : Level κ} {given more : List (κ × Text)} (h : level.Admits more)
    (hsub : given.Sublist more) : level.Admits given :=
  ⟨fun key check hcheck v hv => h.checked key check hcheck v (hsub.subset hv),
    fun key hkey => Nat.le_trans hsub.countP_le (h.single key hkey)⟩

end Level

namespace Scan

variable {level : Level κ} {s s' : Scan κ} {key : κ} {check : Check} {repeats : Bool} {v a t : Text}
  {given more : List (κ × Text)} {words args : List Text} {w : Switch κ}

/-- What is pending has its values, and they are for a switch or for the operands. -/
def Fits (level : Level κ) (s : Scan κ) : Prop :=
  ∀ p ∈ s.pending, p.values ≠ [] ∧ level.Checks p.key p.check ∧ (p.repeats = false → level.Single p.key)

/-- A scan that has gone on from `s` and can be settled again. -/
structure Moves (level : Level κ) (s s' : Scan κ) (given : List (κ × Text)) : Prop where
  gave : Gave s s' given
  fits : s'.Fits level

theorem Moves.trans {r : Scan κ} (h : Moves level s s' given) (h' : Moves level s' r more) :
    Moves level s r (given ++ more) :=
  ⟨h.gave.trans h'.gave, h'.fits⟩

section
variable [DecidableEq κ]

theorem isGiven_eq_false (h : (s.given.countP fun g => g.1 = key) = 0) : s.isGiven key = false := by
  rw [List.countP_eq_zero] at h
  rw [isGiven, List.any_eq_false]
  exact h

theorem store_of_checked {p : Pending κ} (hne : p.values ≠ []) (hcheck : ∀ v ∈ p.values, p.check v = none)
    (honce : p.repeats = false → s.isGiven p.key = false) :
    s.store p = .ok ⟨s.given ++ p.taken, none, false, s.trailing⟩ := by
  have hempty : p.values.isEmpty = false := by simpa using hne
  have hconflict : (!p.repeats && s.isGiven p.key) = false := by
    cases hrepeats : p.repeats with
    | true => rfl
    | false => rw [honce hrepeats]; rfl
  have hfault : p.values.findSome? p.check = none := List.findSome?_eq_none_iff.mpr hcheck
  rw [store, hempty, hconflict, hfault]
  rfl

theorem settle_of_admits (hfits : s.Fits level) (h : level.Admits s.all) : ∃ r, s.settle = .ok r := by
  rw [settle]
  cases hpending : s.pending with
  | none => exact ⟨s, rfl⟩
  | some p =>
    obtain ⟨hne, hcheck, hsingle⟩ := hfits p hpending
    have hall : s.all = s.given ++ p.taken := by rw [all, hpending]; rfl
    rw [hall] at h
    refine ⟨_, store_of_checked hne ?_ ?_⟩
    · intro v hv
      exact h.checked p.key p.check hcheck v
        (List.mem_append_right _ (List.mem_map.mpr ⟨v, hv, rfl⟩))
    · intro hrepeats
      -- One of at most one is pending, so none has been given.
      have hone := h.single p.key (hsingle hrepeats)
      obtain ⟨v, values, hvalues⟩ := List.exists_cons_of_ne_nil hne
      have htaken : 0 < p.taken.countP fun g => g.1 = p.key := by
        rw [Pending.taken, hvalues]
        simp
      rw [List.countP_append] at hone
      exact isGiven_eq_false (by omega)

theorem settled_of_admits (hs : s.Ready) (hfits : s.Fits level) (h : level.Admits s.all) :
    ∃ r, s.settle = .ok r ∧ r.given = s.all ∧ r.pending = none ∧ r.Ready := by
  obtain ⟨r, hr⟩ := settle_of_admits hfits h
  obtain ⟨hgiven, hpending, htrailing, hawaiting⟩ := settle_eq_ok hr
  exact ⟨r, hr, hgiven, hpending, hawaiting hs.awaiting, htrailing.trans hs.trailing⟩

section
variable (hs : s.Ready) (hfits : s.Fits level) (hw : w ∈ level.switches)
include hs hfits hw

theorem exists_apply_flag (huse : w.use = .flag key) (h : level.Admits (s.all ++ [(key, [])])) :
    ∃ s', s.apply (.flag key) none = .ok s' ∧ Moves level s s' [(key, [])] := by
  obtain ⟨r, hr, hgiven, hpending, hready⟩ :=
    settled_of_admits hs hfits (h.of_sublist (List.sublist_append_left _ _))
  have hone := h.single key ⟨w, hw, Or.inl huse⟩
  rw [List.countP_append, ← hgiven] at hone
  have hnone : r.isGiven key = false := isGiven_eq_false (by simpa using hone)
  have happly : s.apply (.flag key) none = .ok { r with given := r.given ++ [(key, [])] } := by
    rw [apply, hr]
    show (if r.isGiven key then _ else _) = _
    rw [hnone]
    rfl
  refine ⟨_, happly, apply_flag hs happly, fun p hp => ?_⟩
  cases hpending.symm.trans hp

theorem exists_apply_attached (huse : w.use = .value key repeats check)
    (h : level.Admits (s.all ++ [(key, v)])) :
    ∃ s', s.apply (.value key repeats check) (some v) = .ok s' ∧ Moves level s s' [(key, v)] := by
  obtain ⟨r, hr, hgiven, hpending, hready⟩ :=
    settled_of_admits hs hfits (h.of_sublist (List.sublist_append_left _ _))
  have hcheck : check v = none :=
    h.checked key check (Or.inl ⟨w, hw, repeats, huse⟩) v (by simp)
  have honce : repeats = false → r.isGiven key = false := by
    rintro rfl
    have hone := h.single key ⟨w, hw, Or.inr ⟨check, huse⟩⟩
    rw [List.countP_append, ← hgiven] at hone
    exact isGiven_eq_false (by simpa using hone)
  have happly : s.apply (.value key repeats check) (some v) =
      .ok ⟨r.given ++ [(key, v)], none, false, r.trailing⟩ := by
    rw [apply, hr]
    exact store_of_checked (p := ⟨key, repeats, check, [v]⟩) (by simp) (by simpa using hcheck) honce
  refine ⟨_, happly, apply_attached hs happly, fun p hp => ?_⟩
  cases hp

theorem exists_apply_next (huse : w.use = .value key repeats check) (h : level.Admits s.all)
    (hv : IsPlain v) : ∃ s', s.apply (.value key repeats check) none = .ok s' ∧
      ∃ r, Moves level s r [(key, v)] ∧ ∀ rest, s'.line level (v :: rest) = r.line level rest := by
  obtain ⟨r, hr, hgiven, hpending, hready⟩ := settled_of_admits hs hfits h
  have happly : s.apply (.value key repeats check) none =
      .ok { r with pending := some ⟨key, repeats, check, []⟩, awaiting := true } := by
    rw [apply, hr]
    rfl
  refine ⟨_, happly, { r with pending := some ⟨key, repeats, check, [v]⟩, awaiting := false }, ⟨⟨⟨rfl,
    hready.trailing⟩, ?_⟩, ?_⟩, fun rest => line_waiting hv hready.trailing rfl rfl⟩
  · simp [all, hgiven, Pending.taken]
  · intro p hp
    cases hp
    refine ⟨by simp, Or.inl ⟨w, hw, repeats, huse⟩, ?_⟩
    rintro rfl
    exact ⟨w, hw, Or.inr ⟨check, huse⟩⟩

end

theorem exists_word (hawaiting : s.awaiting = false) (hfits : s.Fits level)
    (hoperands : level.operands = some (key, check)) (h : level.Admits s.all) :
    ∃ s', s.word level a = .ok s' ∧ s'.Fits level := by
  have hnew : ∀ r : Scan κ, ({ r with pending := some ⟨key, true, check, [a]⟩ } : Scan κ).Fits level := by
    intro r p hp
    cases hp
    exact ⟨by simp, Or.inr hoperands, nofun⟩
  rw [word, hawaiting, hoperands]
  cases hpending : s.pending with
  | none => exact ⟨_, rfl, hnew s⟩
  | some p =>
    by_cases hkey : p.key = key
    · refine ⟨_, if_pos hkey, fun q hq => ?_⟩
      cases hq
      obtain ⟨_, hcheck, hsingle⟩ := hfits p hpending
      exact ⟨by simp, hcheck, hsingle⟩
    · obtain ⟨r, hr⟩ := settle_of_admits hfits h
      refine ⟨_, (if_neg hkey).trans ?_, hnew r⟩
      rw [hr]
      rfl

section
variable (hs : s.Ready) (hfits : s.Fits level)
include hs hfits

/-- Short switches go through if all that the line has given with them is admitted. -/
theorem exists_shorts (hletters : Letters level t words given) (h : level.Admits (s.all ++ given)) :
    ∃ s', Moves level s s' given ∧
      ∀ rest, ((s.shorts level t).bind fun s => s.line level (words ++ rest)) = s'.line level rest := by
  induction hletters generalizing s with
  | nil => exact ⟨s, ⟨.refl hs, hfits⟩, fun _ => rfl⟩
  | @flag c w key t words given hw huse _ ih =>
    have hmem := List.mem_of_find?_eq_some hw
    rw [List.append_cons] at h
    obtain ⟨s₁, happly, hmoves⟩ := exists_apply_flag hs hfits hmem huse
      (h.of_sublist (List.sublist_append_left _ _))
    rw [← hmoves.gave.all_eq] at h
    obtain ⟨s₂, hmore, hline⟩ := ih hmoves.gave.ready hmoves.fits h
    refine ⟨s₂, hmoves.trans hmore, fun rest => ?_⟩
    simp only [shorts, show level.switches.find? _ = _ from hw, huse, happly]
    exact hline rest
  | @attached c w key repeats check v hw huse hne heq =>
    obtain ⟨s₁, happly, hmoves⟩ := exists_apply_attached hs hfits (List.mem_of_find?_eq_some hw) huse h
    refine ⟨s₁, hmoves, fun rest => ?_⟩
    rw [shorts_attached hw huse hne heq, happly]
    rfl
  | @equals c w key repeats check v hw huse =>
    obtain ⟨s₁, happly, hmoves⟩ := exists_apply_attached hs hfits (List.mem_of_find?_eq_some hw) huse h
    refine ⟨s₁, hmoves, fun rest => ?_⟩
    simp only [shorts, show level.switches.find? _ = _ from hw, huse, happly]
    rfl
  | @next c w key repeats check v hw huse hv =>
    obtain ⟨s₁, happly, r, hmoves, hline⟩ := exists_apply_next hs hfits (List.mem_of_find?_eq_some hw) huse
      (h.of_sublist (List.sublist_append_left _ _)) hv
    refine ⟨r, hmoves, fun rest => ?_⟩
    simp only [shorts, show level.switches.find? _ = _ from hw, huse, happly]
    exact hline rest

theorem exists_spelling (hlevel : level.Apart) (hspelling : Spelling level words given)
    (h : level.Admits (s.all ++ given)) :
    ∃ s', Moves level s s' given ∧ ∀ rest, s.line level (words ++ rest) = s'.line level rest := by
  have hall : level.Admits s.all := h.of_sublist (List.sublist_append_left _ _)
  cases hspelling with
  | flag hne heq hw huse =>
    obtain ⟨s₁, happly, hmoves⟩ := exists_apply_flag hs hfits (List.mem_of_find?_eq_some hw) huse h
    refine ⟨s₁, hmoves, fun rest => ?_⟩
    rw [List.cons_append, line_long hlevel hs.trailing hne, long_of_not_mem heq hw, huse, happly]
    rfl
  | equals heq hw huse =>
    obtain ⟨s₁, happly, hmoves⟩ := exists_apply_attached hs hfits (List.mem_of_find?_eq_some hw) huse h
    refine ⟨s₁, hmoves, fun rest => ?_⟩
    rw [List.cons_append, line_long hlevel hs.trailing (by simp), long_of_equals heq hw, huse, happly]
    rfl
  | next hne heq hw huse hv =>
    obtain ⟨s₁, happly, r, hmoves, hline⟩ :=
      exists_apply_next hs hfits (List.mem_of_find?_eq_some hw) huse hall hv
    refine ⟨r, hmoves, fun rest => ?_⟩
    rw [List.cons_append, line_long hlevel hs.trailing hne, long_of_not_mem heq hw, huse, happly]
    exact hline rest
  | letters hc hletters =>
    obtain ⟨s₁, hmoves, hline⟩ := exists_shorts hs hfits hletters h
    refine ⟨s₁, hmoves, fun rest => ?_⟩
    rw [List.cons_append, line_shorts hlevel hs.trailing hc]
    exact hline rest
  | @operand key check a hoperands ha hsub =>
    obtain ⟨s₁, hword, hfits₁⟩ := exists_word (a := a) hs.awaiting hfits hoperands hall
    obtain ⟨key', check', hoperands', hawaiting, htrailing, hgave⟩ := word_gave hs.awaiting hword
    cases hoperands.symm.trans hoperands'
    refine ⟨s₁, ⟨⟨⟨hawaiting, htrailing.trans hs.trailing⟩, hgave⟩, hfits₁⟩, fun rest => ?_⟩
    rw [List.cons_append, line_plain ha hs.trailing (Or.inr hsub), hword]
    rfl

theorem exists_spelled (hlevel : level.Apart) (hspelled : Spelled level args given)
    (h : level.Admits (s.all ++ given)) :
    ∃ s', Moves level s s' given ∧ ∀ rest, s.line level (args ++ rest) = s'.line level rest := by
  induction hspelled generalizing s with
  | nil => exact ⟨s, ⟨.refl hs, hfits⟩, fun _ => rfl⟩
  | cons hspelling _ ih =>
    rw [← List.append_assoc] at h
    obtain ⟨s₁, hmoves, hline⟩ :=
      exists_spelling hs hfits hlevel hspelling (h.of_sublist (List.sublist_append_left _ _))
    rw [← hmoves.gave.all_eq] at h
    obtain ⟨s₂, hmore, hrest⟩ := ih hmoves.gave.ready hmoves.fits h
    refine ⟨s₂, hmoves.trans hmore, fun rest => ?_⟩
    rw [List.append_assoc, hline, hrest]

end

theorem exists_trailing (hawaiting : s.awaiting = false) (htrailing : s.trailing = true)
    (hfits : s.Fits level) (hoperands : level.operands = some (key, check))
    (h : level.Admits (s.all ++ args.map fun a => (key, a))) :
    ∃ r, s.line level args = .ok (r, none) ∧ r.Fits level ∧
      r.all = s.all ++ args.map fun a => (key, a) := by
  induction args generalizing s with
  | nil => exact ⟨s, rfl, hfits, (List.append_nil _).symm⟩
  | cons a rest ih =>
    obtain ⟨s₁, hword, hfits₁⟩ :=
      exists_word (a := a) hawaiting hfits hoperands (h.of_sublist (List.sublist_append_left _ _))
    obtain ⟨key', check', hoperands', hawaiting₁, htrailing₁, hall⟩ := word_gave hawaiting hword
    cases hoperands.symm.trans hoperands'
    rw [List.map_cons, List.append_cons, ← hall] at h ⊢
    obtain ⟨r, hline, hr⟩ := ih hawaiting₁ (htrailing₁.trans htrailing) hfits₁ h
    refine ⟨r, ?_, hr⟩
    rw [line.eq_def]
    simp only [htrailing, hword]
    exact hline

/-- A line is scanned to its end, ready to be settled, if what it gives is admitted. -/
theorem exists_line (hlevel : level.Apart) (hreading : Reading level args given)
    (h : level.Admits given) :
    ∃ r, (start : Scan κ).line level args = .ok (r, none) ∧ r.Fits level ∧ r.all = given := by
  have hfits : (start : Scan κ).Fits level := nofun
  cases hreading with
  | plain hspelled =>
    obtain ⟨r, hmoves, hline⟩ := exists_spelled start_ready hfits hlevel hspelled h
    refine ⟨r, ?_, hmoves.fits, hmoves.gave.all_eq⟩
    rw [← List.append_nil args, hline]
    rfl
  | dash hspelled =>
    obtain ⟨r, hmoves, hline⟩ := exists_spelled start_ready hfits hlevel hspelled h
    refine ⟨{ r with trailing := true }, ?_, hmoves.fits, hmoves.gave.all_eq⟩
    rw [hline, line_dash hlevel hmoves.gave.ready.trailing]
    rfl
  | @operands args rest given key check hspelled hoperands =>
    obtain ⟨s₁, hmoves, hline⟩ := exists_spelled start_ready hfits hlevel hspelled
      (h.of_sublist (List.sublist_append_left _ _))
    have hall : ({ s₁ with trailing := true } : Scan κ).all = given := hmoves.gave.all_eq
    rw [← hall] at h
    obtain ⟨r, hrest, hr, hmore⟩ := exists_trailing (s := { s₁ with trailing := true })
      hmoves.gave.ready.awaiting rfl hmoves.fits hoperands h
    refine ⟨r, ?_, hr, by rw [hmore, hall]⟩
    rw [hline, line_dash hlevel hmoves.gave.ready.trailing, hrest]

end

end Scan

/-- A line that can be read as giving admitted values is accepted, and gives them. -/
theorem Level.exists_read [DecidableEq κ] {level : Level κ} {args : List Text} {given : List (κ × Text)}
    (hlevel : level.Apart) (hreading : Reading level args given) (h : level.Admits given) :
    ∃ s, level.read args = .ok s ∧ s.given = given := by
  obtain ⟨r, hline, hfits, hall⟩ := Scan.exists_line hlevel hreading h
  rw [← hall] at h
  obtain ⟨s, hs⟩ := Scan.settle_of_admits hfits h
  refine ⟨s, ?_, (Scan.settle_eq_ok hs).1.trans hall⟩
  rw [Level.read, hline]
  exact hs

end LineMarkup.Arguments
