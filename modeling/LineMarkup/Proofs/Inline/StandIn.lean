import LineMarkup.Proofs.Inline.Marked
import LineMarkup.Proofs.Inline.Veil

/-!
Escaped tokens and reserved characters are inert. A line can be converted with stand-ins in their
place, neutral characters that are nowhere else in it: putting the bare tokens and the reserved
characters back afterwards gives the conversion of the line itself.
-/

namespace LineMarkup.Inline

set_option autoImplicit false

open Escape (Marked isReserved literalMark tokens shield backslashes shieldRun)

/-- A veil of texts that hold no ASCII and no white space, which no rule at all sees into. -/
structure Inert (φ : Char → Text) : Prop where
  keeps : ∀ c, isNeutral c = false → φ c = [c]
  ne_nil : ∀ c, φ c ≠ []
  dark : ∀ c, isNeutral c = true → ∀ d ∈ φ c, 0x80 ≤ d.toNat ∧ Text.isSpace d = false

namespace Inert
variable {φ : Char → Text} (hφ : Inert φ)
include hφ

theorem veil : Veil φ where
  keeps := hφ.keeps
  hides := by
    intro c hc d hd
    exact hidden_of_dark (hφ.dark c hc d hd).1
  head := by
    intro c hc
    obtain ⟨d, r, hd⟩ := List.exists_cons_of_ne_nil (hφ.ne_nil c)
    obtain ⟨h, hs⟩ := hφ.dark c hc d (by rw [hd]; exact List.mem_cons_self)
    obtain ⟨hopen, hclose, hsign⟩ := head_of_dark h
    exact ⟨d, r, hd, hopen, hclose, hsign, hs⟩

theorem keeps_ascii {c : Char} (hc : c.toNat < 0x80) : Text.Keeps φ c :=
  keeps_of_isNeutral hφ.keeps (isNeutral_of_ascii hc) fun d hd hm =>
    ne_of_dark (hφ.dark d hd c hm).1 hc rfl

theorem startsComment_flatMap (t : Text) : startsComment (t.flatMap φ) = startsComment t := by
  have hsemi : Text.Keeps φ ';' := hφ.keeps_ascii (by decide)
  rw [Bool.eq_iff_iff, startsComment_iff, startsComment_iff, hφ.veil.trimStart_flatMap]
  constructor
  · rintro ⟨rest, ht, hn⟩
    obtain ⟨u, v, hb, hu, hv⟩ := hsemi.split (x := []) ht
    obtain ⟨u', w, rfl, hu', hw⟩ := hsemi.split (x := []) hv
    have hnil : ∀ s : Text, s.flatMap φ = [] → s = [] := fun s hs =>
      Decidable.not_not.mp fun h => hφ.veil.flatMap_ne_nil.mpr h hs
    rw [hnil u hu, hnil u' hu'] at hb
    exact ⟨w, hb, fun hm => hn (hw ▸ hφ.veil.newline.mem_flatMap.mpr hm)⟩
  · rintro ⟨rest, ht, hn⟩
    refine ⟨rest.flatMap φ, ?_, hφ.veil.newline.not_mem_flatMap hn⟩
    rw [ht, List.flatMap_cons, List.flatMap_cons, hsemi.same]
    rfl

theorem comment (t : Text) : dropComment (t.flatMap φ) = (dropComment t).flatMap φ := by
  induction t with
  | nil => rfl
  | cons c r ih =>
    have hs := hφ.startsComment_flatMap (c :: r)
    obtain ⟨d, s, hd⟩ := List.exists_cons_of_ne_nil (hφ.ne_nil c)
    rw [List.flatMap_cons] at hs ⊢
    by_cases hc : startsComment (c :: r) = true
    · rw [hc, hd, List.cons_append] at hs
      rw [dropComment, if_pos hc, hd, List.cons_append, dropComment, if_pos hs]
      rfl
    · rw [dropComment, if_neg hc, List.flatMap_cons, ← ih]
      cases hn : isNeutral c with
      | true =>
        apply dropComment_append
        intro d hd
        obtain ⟨h, hsp⟩ := hφ.dark c hn d hd
        exact ⟨hsp, ne_of_dark h (by decide)⟩
      | false =>
        rw [hφ.keeps c hn, List.singleton_append] at hs ⊢
        rw [dropComment, if_neg (by rwa [hs])]
        rfl

theorem shieldText_flatMap (t : Text) :
    Escape.shieldText (t.flatMap φ) = (Escape.shieldText t).flatMap φ := by
  have dark_shield : ∀ {d : Char}, 0x80 ≤ d.toNat → shield d = d := by
    intro d hd
    rcases Escape.shield_eq_self_or d with h | h
    · exact h
    · have := Escape.toNat_of_mem_shields _ h
      simp only at this
      omega
  have hc (c : Char) : (φ c).map shield = φ (shield c) := by
    cases hn : isNeutral c with
    | true =>
      rw [dark_shield (isNeutral_iff.mp hn).1]
      rw [List.map_congr_left fun d hd => dark_shield (hφ.dark c hn d hd).1, List.map_id']
    | false =>
      have hs : isNeutral (shield c) = false := by
        rcases Escape.shield_eq_self_or c with h | h
        · rwa [h]
        · exact isNeutral_of_isReserved (Escape.isReserved_of_mem_shields _ h).2.1
      rw [hφ.keeps c hn, hφ.keeps _ hs, List.map_singleton]
  induction t with
  | nil => rfl
  | cons c r ih =>
    have hcons : Escape.shieldText (c :: r) = shield c :: Escape.shieldText r := rfl
    rw [List.flatMap_cons, hcons, List.flatMap_cons, ← ih, ← hc, Escape.shieldText, List.map_append]
    rfl

theorem codeSpan (t : Text) :
    Rule.codeSpan.apply (t.flatMap φ) = (Rule.codeSpan.apply t).flatMap φ := by
  apply replaceAll_pair_flatMap (hφ.keeps_ascii (by decide))
  intro x
  have hcode := hφ.veil.flatMap_between (a := "<code>".toList) (b := "</code>".toList)
    (by decide) (by decide) (Escape.shieldText x)
  exact (congrArg (fun y => "<code>".toList ++ y ++ "</code>".toList)
    (hφ.shieldText_flatMap x)).trans hcode.symm

theorem apply (rule : Rule) (t : Text) : rule.apply (t.flatMap φ) = (rule.apply t).flatMap φ := by
  cases rule with
  | comment => exact hφ.comment t
  | codeSpan => exact hφ.codeSpan t
  | emphasis => exact hφ.veil.emphasis t
  | link =>
    apply hφ.veil.link
    intro u _ label rest _ c hc
    have hne : c ≠ ')' := of_decide_eq_true (List.all_eq_true.mp List.all_takeWhile c hc)
    exact (hφ.keeps_ascii (by decide)).apart c hne
  | heading => exact hφ.veil.heading t

theorem applyAll (rules : List Rule) (t : Text) :
    rules.foldl (fun t rule => rule.apply t) (t.flatMap φ) =
      (rules.foldl (fun t rule => rule.apply t) t).flatMap φ := by
  induction rules generalizing t with
  | nil => rfl
  | cons rule rules ih => rw [List.foldl_cons, hφ.apply, ih, List.foldl_cons]

end Inert

/-- The characters that can need a stand-in: those a backslash can escape and those reserved for it. -/
def specials : List Char := tokens ++ (List.range 9).map fun n => Char.ofNat (0xE000 + n)

theorem mem_specials {c : Char} : c ∈ specials ↔ tokens.contains c = true ∨ isReserved c = true := by
  rw [specials, List.mem_append, List.contains_iff_mem, List.mem_map]
  apply or_congr_right
  constructor
  · rintro ⟨n, hn, rfl⟩
    have h : ∀ n ∈ List.range 9, isReserved (Char.ofNat (0xE000 + n)) = true := by decide
    exact h n hn
  · intro h
    simp only [isReserved, Bool.and_eq_true, Nat.ble_eq] at h
    refine ⟨c.toNat - 0xE000, List.mem_range.mpr (by omega), ?_⟩
    have hc : 0xE000 + (c.toNat - 0xE000) = c.toNat := by omega
    rw [hc, Char.ofNat_toNat]

/-- Stand-ins for the special characters of a line. -/
structure StandIns (choose : Char → Char) (line : Text) : Prop where
  distinct : ∀ x ∈ specials, ∀ y ∈ specials, choose x = choose y → x = y
  neutral : ∀ x ∈ specials, isNeutral (choose x) = true
  absent : ∀ x ∈ specials, choose x ∉ line

/-- An escaped token, which is one after an odd number of backslashes, and its escaping backslash give
way to the stand-in, and the other backslashes of the run to half as many. A reserved character
gives way to its stand-in. -/
def standInRun (choose : Char → Char) (k : Nat) (c : Char) : Nat × Char :=
  if isReserved c then (k, choose c)
  else if tokens.contains c && k % 2 = 1 then ((k - 1) / 2, choose c)
  else (k, c)

def putStandIns (choose : Char → Char) : Text → Text := Escape.changeRuns (standInRun choose)

/-- The character that a stand-in is for. -/
def restore (choose : Char → Char) (c : Char) : Char :=
  (specials.find? fun x => choose x = c).getD c

/-- What shielding makes of the character that a stand-in is for. -/
def shielded (choose : Char → Char) (c : Char) : Text :=
  match specials.find? fun x => choose x = c with
  | some x => if isReserved x then [literalMark, x] else [shield x]
  | none => [c]

theorem eq_choose_or (choose : Char → Char) (c : Char) : (∃ x ∈ specials, c = choose x) ∨
    (shielded choose c = [c] ∧ restore choose c = c) := by
  cases hf : specials.find? fun y => choose y = c with
  | none => exact .inr ⟨by rw [shielded, hf], by rw [restore, hf, Option.getD_none]⟩
  | some x =>
    have hx : choose x = c := by simpa using List.find?_some hf
    exact .inl ⟨x, List.mem_of_find?_eq_some hf, hx.symm⟩

theorem shield_token {x : Char} (hx : x ∈ specials) (hr : isReserved x = false) :
    (x, shield x) ∈ Escape.shields := by
  apply Escape.mem_shields_of_mem_tokens
  rcases mem_specials.mp hx with ht | ht
  · exact List.contains_iff_mem.mp ht
  · exact Bool.noConfusion (hr.symm.trans ht)

theorem shieldRun_of_neutral (k : Nat) {c : Char} (hc : isNeutral c = true) :
    shieldRun k c = backslashes k ++ [c] := by
  obtain ⟨ha, _, hr⟩ := isNeutral_iff.mp hc
  have ht : ¬ tokens.contains c = true := by
    intro ht
    have := Escape.toNat_of_mem_shields _
      (Escape.mem_shields_of_mem_tokens c (List.contains_iff_mem.mp ht))
    simp only at this
    omega
  rw [shieldRun, hr, if_neg (by decide), if_neg ht]

namespace StandIns
variable {choose : Char → Char} {line : Text} (h : StandIns choose line)
include h

theorem find_choose {x : Char} (hx : x ∈ specials) :
    (specials.find? fun y => choose y = choose x) = some x := by
  cases hf : specials.find? fun y => choose y = choose x with
  | none => exact absurd (decide_eq_true rfl) (List.find?_eq_none.mp hf x hx)
  | some y =>
    have hy : choose y = choose x := by simpa using List.find?_some hf
    rw [h.distinct y (List.mem_of_find?_eq_some hf) x hx hy]

theorem find_of_mem {c : Char} (hc : c ∈ line) : (specials.find? fun y => choose y = c) = none := by
  rw [List.find?_eq_none]
  intro y hy he
  exact h.absent y hy (of_decide_eq_true he ▸ hc)

theorem find_of_not_neutral {c : Char} (hc : isNeutral c = false) :
    (specials.find? fun y => choose y = c) = none := by
  rw [List.find?_eq_none]
  intro y hy he
  have hn := h.neutral y hy
  rw [of_decide_eq_true he, hc] at hn
  exact absurd hn (by decide)

theorem shielded_choose {x : Char} (hx : x ∈ specials) :
    shielded choose (choose x) = if isReserved x then [literalMark, x] else [shield x] := by
  rw [shielded, h.find_choose hx]

theorem restore_choose {x : Char} (hx : x ∈ specials) : restore choose (choose x) = x := by
  rw [restore, h.find_choose hx, Option.getD_some]

theorem shielded_of_not_neutral {c : Char} (hc : isNeutral c = false) :
    shielded choose c = [c] := by
  rw [shielded, h.find_of_not_neutral hc]

theorem restore_of_not_neutral {c : Char} (hc : isNeutral c = false) : restore choose c = c := by
  rw [restore, h.find_of_not_neutral hc, Option.getD_none]

theorem inert : Inert (shielded choose) where
  keeps := fun c => h.shielded_of_not_neutral
  ne_nil := by
    intro c
    rcases eq_choose_or choose c with ⟨x, hx, rfl⟩ | ⟨hs, _⟩
    · rw [h.shielded_choose hx]
      split <;> simp
    · rw [hs]
      simp
  dark := by
    intro c hc d hd
    rcases eq_choose_or choose c with ⟨x, hx, rfl⟩ | ⟨hs, _⟩
    · apply dark_of_isReserved
      rw [h.shielded_choose hx] at hd
      split at hd
      next hr =>
        rcases List.mem_cons.mp hd with rfl | hd
        · decide
        · rw [List.mem_singleton.mp hd]
          exact hr
      next hr =>
        rw [List.mem_singleton.mp hd]
        exact (Escape.isReserved_of_mem_shields _ (shield_token hx (by simpa using hr))).2.1
    · rw [hs, List.mem_singleton] at hd
      rw [hd]
      exact ⟨(isNeutral_iff.mp hc).1, (isNeutral_iff.mp hc).2.1⟩

theorem shieldRun_standInRun (k : Nat) {c : Char} (hc : c ∈ line) :
    (shieldRun (standInRun choose k c).1 (standInRun choose k c).2).flatMap (shielded choose) =
      shieldRun k c := by
  have hback : shielded choose '\\' = ['\\'] := h.shielded_of_not_neutral (by decide)
  have hrun : ∀ n d, (backslashes n ++ [d]).flatMap (shielded choose) =
      backslashes n ++ shielded choose d := by
    intro n d
    rw [List.flatMap_append, Escape.flatMap_backslashes hback, List.flatMap_singleton]
  have hself : shielded choose c = [c] := by rw [shielded, h.find_of_mem hc]
  by_cases hr : isReserved c = true
  · have hs : c ∈ specials := mem_specials.mpr (.inr hr)
    simp only [standInRun, if_pos hr]
    rw [shieldRun_of_neutral k (h.neutral c hs), hrun, h.shielded_choose hs, if_pos hr, shieldRun,
      if_pos hr]
  · by_cases ht : tokens.contains c = true
    · have hs : c ∈ specials := mem_specials.mpr (.inl ht)
      have hmem : c ∈ tokens := List.contains_iff_mem.mp ht
      by_cases hk : k % 2 = 1
      · have hhalf : (k - 1) / 2 = k / 2 := by omega
        have hodd : ¬ k % 2 = 0 := by omega
        have hstand : standInRun choose k c = ((k - 1) / 2, choose c) := by
          simp [standInRun, hr, hk, hmem]
        rw [hstand, shieldRun_of_neutral _ (h.neutral c hs), hrun, h.shielded_choose hs, if_neg hr,
          shieldRun, if_neg hr, if_pos ht, if_neg hodd, hhalf]
      · have heven : k % 2 = 0 := by omega
        have hstand : standInRun choose k c = (k, c) := by
          simp [standInRun, hr, hk, hmem]
        rw [hstand, shieldRun, if_neg hr, if_pos ht, if_pos heven, hrun, hself]
    · have hstand : standInRun choose k c = (k, c) := by
        simp [standInRun, hr, mt List.contains_iff_mem.mpr ht]
      rw [hstand, shieldRun, if_neg hr, if_neg ht, hrun, hself]

theorem standInRun_ne_backslash (k : Nat) {c : Char} (hc : c ≠ '\\') :
    (standInRun choose k c).2 ≠ '\\' := by
  have hne : ∀ x ∈ specials, choose x ≠ '\\' := fun x hx =>
    ne_of_dark (isNeutral_iff.mp (h.neutral x hx)).1 (by decide)
  rw [standInRun]
  split
  next hr => exact hne c (mem_specials.mpr (.inr hr))
  next =>
    split
    next ht => exact hne c (mem_specials.mpr (.inl (Bool.and_eq_true_iff.mp ht).1))
    next => exact hc

theorem shieldEscapes_putStandIns :
    (Escape.shieldEscapes (putStandIns choose line)).flatMap (shielded choose) =
      Escape.shieldEscapes line := by
  rw [Escape.shieldEscapes_eq_rewriteRuns, Escape.shieldEscapes_eq_rewriteRuns, putStandIns,
    Escape.rewriteRuns_changeRuns fun k c hc => h.standInRun_ne_backslash k hc,
    Escape.rewriteRuns_flatMap (h.shielded_of_not_neutral (by decide))]
  exact Escape.rewriteRuns_congr fun k c hc _ => h.shieldRun_standInRun k hc

theorem unshield_shielded {t : Text} (ht : Marked t) :
    Escape.unshield (t.flatMap (shielded choose)) = (Escape.unshield t).map (restore choose) := by
  rw [List.map_eq_flatMap]
  apply Escape.unshield_flatMap ht
  · intro c hc
    have hn := isNeutral_of_isReserved hc
    exact ⟨h.shielded_of_not_neutral hn, by rw [h.restore_of_not_neutral hn]⟩
  · intro c hc _
    rcases eq_choose_or choose c with ⟨x, hx, rfl⟩ | ⟨hs, hrest⟩
    · have hr := (isNeutral_iff.mp (h.neutral x hx)).2.2
      rw [h.shielded_choose hx, Escape.unshieldChar_eq_self hr, h.restore_choose hx]
      split
      next hres => exact ⟨.literal hres .nil, Escape.unshield_literal x []⟩
      next hres =>
        have hp := shield_token hx (by simpa using hres)
        have hm := (Escape.isReserved_of_mem_shields _ hp).2.2
        refine ⟨.plain hm .nil, ?_⟩
        rw [Escape.unshield_cons hm, Escape.unshieldChar_of_mem_shields _ hp]
        rfl
    · rw [hs]
      refine ⟨.plain hc .nil, ?_⟩
      rw [Escape.unshield_cons hc]
      rcases Escape.unshieldChar_eq_self_or c with hu | hu
      · rw [hu, hrest]
        rfl
      · rw [h.restore_of_not_neutral (isNeutral_of_ascii (Escape.toNat_of_mem_shields _ hu))]
        rfl

end StandIns

/-- Converting a line is converting it with stand-ins for its escaped tokens and reserved characters
and then putting these back. -/
theorem convert_eq_map_restore {choose : Char → Char} {line : Text} (h : StandIns choose line) :
    convert line = (convert (putStandIns choose line)).map (restore choose) := by
  have hm : Marked (Rule.all.foldl (fun t rule => rule.apply t)
      (Escape.shieldEscapes (putStandIns choose line))) :=
    marked_applyAll Rule.all (Escape.marked_shieldEscapes _)
  rw [convert, convert, ← h.unshield_shielded hm, ← h.inert.applyAll, h.shieldEscapes_putStandIns]

def ideograph (c : Char) : Char := Char.ofNat (0x3400 + c.toNat % 0x1000)

theorem convert_eq_map_restore_ideograph :
    StandIns ideograph "*\\**\uE008 `\\\\\\`\uE005` ;\\;".toList ∧
      convert "*\\**\uE008 `\\\\\\`\uE005` ;\\;".toList =
        (convert (putStandIns ideograph "*\\**\uE008 `\\\\\\`\uE005` ;\\;".toList)).map
          (restore ideograph) :=
  have h : StandIns ideograph "*\\**\uE008 `\\\\\\`\uE005` ;\\;".toList :=
    ⟨by decide, by decide, by decide⟩
  ⟨h, convert_eq_map_restore h⟩

end LineMarkup.Inline
