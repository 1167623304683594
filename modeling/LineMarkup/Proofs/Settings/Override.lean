import LineMarkup.Settings.Override
import Mathlib.Data.List.Basic

/-!
What one override does to settings: it sets a key to the value that it writes and leaves the other keys
alone, or it is refused for one of three reasons, whatever the settings are.
-/

namespace LineMarkup

set_option autoImplicit false

namespace Count

/-- A number of 64 bits in decimal digits, with a plus sign before them or without. -/
def Writes (t : Text) (n : Nat) : Prop :=
  ∃ digits, (t = digits ∨ t = '+' :: digits) ∧ digits ≠ [] ∧ (∀ c ∈ digits, c.isDigit = true) ∧
    Text.ofDigits digits = n ∧ n ≤ largest

variable {t : Text} {n m : Nat}

theorem le_foldl_digits (n : Nat) (t : Text) :
    n ≤ t.foldl (fun n c => n * 10 + (c.toNat - '0'.toNat)) n := by
  induction t generalizing n with
  | nil => exact Nat.le_refl n
  | cons c t ih =>
    rw [List.foldl_cons]
    have h := ih (n * 10 + (c.toNat - '0'.toNat))
    omega

theorem readFrom_eq_ok_iff (hn : n ≤ largest) :
    readFrom n t = .ok m ↔ (∀ c ∈ t, c.isDigit = true) ∧
      t.foldl (fun n c => n * 10 + (c.toNat - '0'.toNat)) n = m ∧ m ≤ largest := by
  induction t generalizing n with
  | nil =>
    simp only [readFrom, Except.ok.injEq, List.foldl_nil]
    constructor
    · rintro rfl
      exact ⟨by simp, rfl, hn⟩
    · exact fun h => h.2.1
  | cons c t ih =>
    rw [readFrom, List.forall_mem_cons, List.foldl_cons]
    by_cases hc : c.isDigit = true
    · rw [if_neg (by simp [hc])]
      by_cases hlarge : largest < n * 10 + (c.toNat - '0'.toNat)
      · -- What follows makes the number only larger.
        have hle := le_foldl_digits (n * 10 + (c.toNat - '0'.toNat)) t
        rw [if_pos hlarge]
        constructor
        · intro h
          cases h
        · rintro ⟨_, rfl, h⟩
          omega
      · rw [if_neg hlarge, ih (by omega)]
        simp only [hc, true_and]
    · rw [if_pos (by simpa using hc)]
      constructor
      · intro h
        cases h
      · exact fun h => absurd h.1.1 hc

theorem read_eq_ok_iff : read t = .ok n ↔ Writes t n := by
  have hfrom : ∀ digits, readFrom 0 digits = .ok n ↔
      (∀ c ∈ digits, c.isDigit = true) ∧ Text.ofDigits digits = n ∧ n ≤ largest :=
    fun digits => readFrom_eq_ok_iff (Nat.zero_le _)
  have hplus : ('+' : Char).isDigit = false := by decide
  unfold read
  split
  next =>
    constructor
    · intro h
      cases h
    · rintro ⟨digits, rfl | h, hne, _⟩
      · exact absurd rfl hne
      · cases h
  next =>
    constructor
    · intro h
      cases h
    · rintro ⟨digits, rfl | h, hne, hdigits, _⟩
      · simpa [hplus] using hdigits '+' (by simp)
      · cases h
        exact absurd rfl hne
  next r hr =>
    rw [hfrom]
    constructor
    · exact fun h => ⟨r, Or.inr rfl, by rintro rfl; exact hr rfl, h⟩
    · rintro ⟨digits, rfl | h, _, hdigits⟩
      · simpa [hplus] using hdigits.1 '+' (by simp)
      · cases h
        exact hdigits
  next hnil hone hsign =>
    rw [hfrom]
    constructor
    · exact fun h => ⟨t, Or.inl rfl, hnil, h⟩
    · rintro ⟨digits, rfl | h, _, hdigits⟩
      · exact hdigits
      · exact absurd h (hsign digits)

end Count

namespace Settings

/-- What a key is set to. -/
def Key.Value : Key → Type
  | .outputDir => Option Path
  | .outputExtension => Text
  | .lineSeparator => Text
  | .jobs => Option Nat

def get (s : Settings) : (k : Key) → k.Value
  | .outputDir => s.outputDir
  | .outputExtension => s.outputExtension
  | .lineSeparator => s.lineSeparator
  | .jobs => s.jobs

def set (s : Settings) : (k : Key) → k.Value → Settings
  | .outputDir, v => { s with outputDir := v }
  | .outputExtension, v => { s with outputExtension := v }
  | .lineSeparator, v => { s with lineSeparator := v }
  | .jobs, v => { s with jobs := v }

/-- How the value of an override is read. An empty one unsets the folder and the number of jobs. -/
inductive Reads : (k : Key) → Text → k.Value → Prop where
  | noFolder : Reads .outputDir [] none
  | folder {value : Text} : value ≠ [] → Reads .outputDir value (some value)
  | extension (value : Text) : Reads .outputExtension value (value.dropWhile (· = '.'))
  | separator (value : Text) : Reads .lineSeparator value (unescape value)
  | noJobs : Reads .jobs [] none
  | jobs {value : Text} {n : Nat} : Count.Writes value n → Reads .jobs value (some n)

/-- The text is an override of a key: the key's name and the value on both sides of an equals sign. -/
def Overrides (o : Text) (k : Key) (v : k.Value) : Prop :=
  ∃ name value : Text, o = name ++ '=' :: value ∧ '=' ∉ name ∧ name.trim = k.name ∧ Reads k value.trim v

/-- The text is no override, and why. -/
inductive Refused (o : Text) : OverrideError → Prop where
  | noEquals : '=' ∉ o → Refused o (.noEquals o)
  | unknownKey {name value : Text} : o = name ++ '=' :: value → '=' ∉ name →
      (∀ k : Key, name.trim ≠ k.name) → Refused o (.unknownKey name.trim)
  | badJobs {name value : Text} {fault : CountFault} : o = name ++ '=' :: value → '=' ∉ name →
      name.trim = Key.jobs.name → value.trim ≠ [] → Count.read value.trim = .error fault →
      Refused o (.badJobs value.trim fault)

variable {s s' : Settings} {k j : Key} {v : k.Value} {t o : Text} {e : OverrideError}

@[simp] theorem get_set_self (s : Settings) (k : Key) (v : k.Value) : (s.set k v).get k = v := by
  cases k <;> rfl

theorem get_set_of_ne (s : Settings) (h : j ≠ k) (v : k.Value) : (s.set k v).get j = s.get j := by
  cases k <;> cases j <;> first | rfl | exact absurd rfl h

theorem ofName?_name (k : Key) : Key.ofName? k.name = some k := by
  cases k <;> rfl

theorem ofName?_eq_some_iff : Key.ofName? t = some k ↔ t = k.name := by
  constructor
  · intro h
    simpa [eq_comm] using List.find?_some h
  · rintro rfl
    exact ofName?_name k

theorem name_injective : Function.Injective Key.name := by
  intro j k h
  have hsome := ofName?_name j
  rw [h, ofName?_name] at hsome
  exact (Option.some.inj hsome).symm

theorem ofName?_eq_none_iff : Key.ofName? t = none ↔ ∀ k : Key, t ≠ k.name := by
  rw [Option.eq_none_iff_forall_ne_some]
  exact forall_congr' fun k => not_congr ofName?_eq_some_iff

/-- The value that a key is set to is the one that is read, and there is at most one. -/
theorem assign_eq_ok_iff : s.assign k t = .ok s' ↔ ∃ v, Reads k t v ∧ s' = s.set k v := by
  constructor
  · intro h
    cases k with
    | outputDir =>
      cases t with
      | nil =>
        cases h
        exact ⟨none, .noFolder, rfl⟩
      | cons c r =>
        cases h
        exact ⟨some (c :: r), .folder (by simp), rfl⟩
    | outputExtension =>
      cases h
      exact ⟨_, .extension t, rfl⟩
    | lineSeparator =>
      cases h
      exact ⟨_, .separator t, rfl⟩
    | jobs =>
      cases t with
      | nil =>
        cases h
        exact ⟨none, .noJobs, rfl⟩
      | cons c r =>
        rw [assign, if_neg (by simp)] at h
        split at h
        next n hn =>
          cases h
          exact ⟨some n, .jobs (Count.read_eq_ok_iff.mp hn), rfl⟩
        next => cases h
  · rintro ⟨v, hv, rfl⟩
    cases hv with
    | noFolder => rfl
    | folder hne =>
      cases t with
      | nil => exact absurd rfl hne
      | cons c r => rfl
    | extension => rfl
    | separator => rfl
    | noJobs => rfl
    | @jobs _ n hn =>
      have hread := Count.read_eq_ok_iff.mpr hn
      cases t with
      | nil => cases hread
      | cons c r =>
        rw [assign, if_neg (by simp), hread]
        rfl

theorem assign_eq_error_iff : s.assign k t = .error e ↔
    k = .jobs ∧ t ≠ [] ∧ ∃ fault, Count.read t = .error fault ∧ e = .badJobs t fault := by
  constructor
  · intro h
    cases k with
    | jobs =>
      cases t with
      | nil => cases h
      | cons c r =>
        rw [assign, if_neg (by simp)] at h
        split at h
        next => cases h
        next fault hfault =>
          cases h
          exact ⟨rfl, by simp, fault, hfault, rfl⟩
    | _ => cases h
  · rintro ⟨rfl, hne, fault, hfault, rfl⟩
    cases t with
    | nil => exact absurd rfl hne
    | cons c r => rw [assign, if_neg (by simp), hfault]

theorem overrideText_eq_ok_iff :
    s.overrideText o = .ok s' ↔ ∃ k v, Overrides o k v ∧ s' = s.set k v := by
  constructor
  · intro h
    unfold overrideText at h
    split at h
    next name value hcut =>
      obtain ⟨ho, hname⟩ := Text.cut_eq_some_iff.mp hcut
      unfold override at h
      split at h
      next k hk =>
        obtain ⟨v, hv, hs⟩ := assign_eq_ok_iff.mp h
        exact ⟨k, v, ⟨name, value, ho, hname, ofName?_eq_some_iff.mp hk, hv⟩, hs⟩
      next => cases h
    next => cases h
  · rintro ⟨k, v, ⟨name, value, ho, hname, hk, hv⟩, rfl⟩
    have hcut := Text.cut_eq_some_iff.mpr ⟨ho, hname⟩
    simp only [overrideText, hcut, override, ofName?_eq_some_iff.mpr hk]
    exact assign_eq_ok_iff.mpr ⟨v, hv, rfl⟩

theorem overrideText_eq_error_iff : s.overrideText o = .error e ↔ Refused o e := by
  constructor
  · intro h
    unfold overrideText at h
    split at h
    next name value hcut =>
      obtain ⟨ho, hname⟩ := Text.cut_eq_some_iff.mp hcut
      unfold override at h
      split at h
      next k hk =>
        obtain ⟨rfl, hne, fault, hfault, rfl⟩ := assign_eq_error_iff.mp h
        exact .badJobs ho hname (ofName?_eq_some_iff.mp hk) hne hfault
      next hk =>
        cases h
        exact .unknownKey ho hname (ofName?_eq_none_iff.mp hk)
    next hcut =>
      cases h
      exact .noEquals (Text.cut_eq_none_iff.mp hcut)
  · intro h
    cases h with
    | noEquals ho => simp only [overrideText, Text.cut_eq_none_iff.mpr ho]
    | unknownKey ho hname hk =>
      simp only [overrideText, Text.cut_eq_some_iff.mpr ⟨ho, hname⟩, override,
        ofName?_eq_none_iff.mpr hk]
    | badJobs ho hname hk hne hfault =>
      simp only [overrideText, Text.cut_eq_some_iff.mpr ⟨ho, hname⟩, override,
        ofName?_eq_some_iff.mpr hk]
      exact assign_eq_error_iff.mpr ⟨rfl, hne, _, hfault, rfl⟩

theorem Overrides.key_unique {v' : j.Value} (h : Overrides o k v) (h' : Overrides o j v') : k = j := by
  obtain ⟨name, value, ho, hname, hk, _⟩ := h
  obtain ⟨name', value', ho', hname', hj, _⟩ := h'
  have hcut := (Text.cut_eq_some_iff.mpr ⟨ho, hname⟩).symm.trans
    (Text.cut_eq_some_iff.mpr ⟨ho', hname'⟩)
  cases hcut
  exact name_injective (hk.symm.trans hj)

theorem Overrides.value_unique {v' : k.Value} (h : Overrides o k v) (h' : Overrides o k v') : v = v' := by
  have hset : default.set k v = default.set k v' := by
    have hv := overrideText_eq_ok_iff (s := default).mpr ⟨k, v, h, rfl⟩
    have hv' := overrideText_eq_ok_iff (s := default).mpr ⟨k, v', h', rfl⟩
    exact Except.ok.inj (hv.symm.trans hv')
  rw [← get_set_self default k v, hset, get_set_self]

end Settings

end LineMarkup
