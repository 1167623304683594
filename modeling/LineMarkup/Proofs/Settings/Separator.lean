import LineMarkup.Proofs.Settings.Sequence
import LineMarkup.Proofs.Text.Trim
import Mathlib.Data.List.DropRight

/-!
Line separators as they are typed. An override is trimmed before it is read, and typing a newline, a tab
or a carriage return as an escape keeps it from being trimmed away. So a separator comes out as it was
meant, without the other white space at its ends.
-/

namespace LineMarkup.Settings

set_option autoImplicit false

/-- How a character of a separator is typed. -/
def typed : Char → Text
  | '\\' => ['\\', '\\']
  | '\n' => ['\\', 'n']
  | '\t' => ['\\', 't']
  | '\r' => ['\\', 'r']
  | c => [c]

def escape (t : Text) : Text := t.flatMap typed

/-- White space that is typed as it is. -/
def isBare (c : Char) : Bool := Text.isSpace c && !(c = '\n' || c = '\t' || c = '\r')

/-- What is left of a separator that is typed. -/
def strip (t : Text) : Text := (t.dropWhile isBare).rdropWhile isBare

variable {c : Char} {t : Text}

theorem escape_cons (c : Char) (t : Text) : escape (c :: t) = typed c ++ escape t :=
  List.flatMap_cons

theorem escape_concat (t : Text) (c : Char) : escape (t ++ [c]) = escape t ++ typed c := by
  rw [escape, List.flatMap_append, List.flatMap_singleton]
  rfl

/-- A character is typed as itself, or as two that are no white space, the first a backslash. -/
theorem typed_cases (c : Char) : typed c = [c] ∧ c ≠ '\\' ∧ isBare c = Text.isSpace c ∨
    isBare c = false ∧ ∃ d, typed c = ['\\', d] ∧ Text.isSpace d = false ∧
      ∀ r, unescape ('\\' :: d :: r) = c :: unescape r := by
  unfold typed
  split
  next => exact Or.inr ⟨by decide, '\\', rfl, by decide, fun _ => rfl⟩
  next => exact Or.inr ⟨by decide, 'n', rfl, by decide, fun _ => rfl⟩
  next => exact Or.inr ⟨by decide, 't', rfl, by decide, fun _ => rfl⟩
  next => exact Or.inr ⟨by decide, 'r', rfl, by decide, fun _ => rfl⟩
  next hslash hnewline htab hreturn =>
    exact Or.inl ⟨rfl, hslash, by simp [isBare, show ¬ c = '\n' from hnewline, show ¬ c = '\t' from htab,
      show ¬ c = '\r' from hreturn]⟩

theorem isSpace_backslash : Text.isSpace '\\' = false := by decide

theorem unescape_cons (hc : c ≠ '\\') (r : Text) : unescape (c :: r) = c :: unescape r := by
  rw [unescape]
  all_goals
    rintro _ rfl
    exact absurd rfl hc

theorem unescape_escape (t : Text) : unescape (escape t) = t := by
  induction t with
  | nil => rfl
  | cons c t ih =>
    rw [escape_cons]
    rcases typed_cases c with ⟨htyped, hc, _⟩ | ⟨_, d, htyped, _, hread⟩
    · rw [htyped, List.singleton_append, unescape_cons hc, ih]
    · rw [htyped, List.cons_append, List.singleton_append, hread, ih]

theorem trimStart_escape (t : Text) : (escape t).trimStart = escape (t.dropWhile isBare) := by
  induction t with
  | nil => rfl
  | cons c t ih =>
    rw [List.dropWhile_cons, escape_cons]
    rcases typed_cases c with ⟨htyped, _, hbare⟩ | ⟨hbare, d, htyped, _⟩
    · rw [hbare, htyped, List.singleton_append]
      cases hspace : Text.isSpace c with
      | true =>
        rw [if_pos rfl, ← ih]
        exact List.dropWhile_cons_of_pos hspace
      | false =>
        rw [Text.trimStart_eq_self_of_head hspace, if_neg Bool.false_ne_true, escape_cons, htyped]
        rfl
    · rw [hbare, if_neg Bool.false_ne_true, escape_cons, htyped, List.cons_append,
        Text.trimStart_eq_self_of_head isSpace_backslash]

theorem trimEnd_escape (t : Text) : (escape t).trimEnd = escape (t.rdropWhile isBare) := by
  induction t using List.reverseRecOn with
  | nil => rfl
  | append_singleton t c ih =>
    rw [List.rdropWhile_concat, escape_concat]
    rcases typed_cases c with ⟨htyped, _, hbare⟩ | ⟨hbare, d, htyped, hd, _⟩
    · rw [hbare, htyped]
      cases hspace : Text.isSpace c with
      | true =>
        rw [if_pos rfl, ← ih]
        exact List.rdropWhile_concat_pos Text.isSpace (escape t) c hspace
      | false =>
        rw [Text.trimEnd_append_cons hspace, if_neg Bool.false_ne_true, escape_concat, htyped]
        rfl
    · rw [hbare, if_neg Bool.false_ne_true, escape_concat, htyped, List.append_cons,
        Text.trimEnd_append_cons hd]
      rfl

theorem trim_escape (t : Text) : (escape t).trim = escape (strip t) := by
  rw [Text.trim, trimStart_escape, trimEnd_escape, strip]

/-- An override with a typed separator sets that, and nothing else. -/
theorem overrideText_escape (s : Settings) (t : Text) :
    s.overrideText ("line_separator=".toList ++ escape t) = .ok { s with lineSeparator := strip t } := by
  refine overrideText_eq_ok_iff.mpr ⟨.lineSeparator, strip t,
    ⟨"line_separator".toList, escape t, rfl, by decide, by decide, ?_⟩, rfl⟩
  have hreads := Reads.separator (escape t).trim
  rwa [trim_escape, unescape_escape, ← trim_escape] at hreads

theorem isBare_eq_false_iff : isBare c = false ↔
    (Text.isSpace c = true → c = '\n' ∨ c = '\t' ∨ c = '\r') := by
  simp [isBare, or_assoc, imp_iff_not_or]

theorem dropWhile_isBare_eq_self_iff :
    t.dropWhile isBare = t ↔ ∀ c ∈ t.head?, isBare c = false := by
  cases t with
  | nil => simp
  | cons c t => simp [List.dropWhile_eq_self_iff]

theorem rdropWhile_isBare_eq_self_iff :
    t.rdropWhile isBare = t ↔ ∀ c ∈ t.getLast?, isBare c = false := by
  cases t using List.reverseRecOn with
  | nil => simp
  | append_singleton t c => simp [List.rdropWhile_eq_self_iff]

theorem strip_eq_self_iff :
    strip t = t ↔ (∀ c ∈ t.head?, isBare c = false) ∧ ∀ c ∈ t.getLast?, isBare c = false := by
  rw [← dropWhile_isBare_eq_self_iff, ← rdropWhile_isBare_eq_self_iff]
  constructor
  · intro h
    have hprefix : strip t <+: t.dropWhile isBare := List.rdropWhile_prefix isBare _
    rw [h] at hprefix
    have hstart : t.dropWhile isBare = t :=
      (List.dropWhile_suffix isBare).eq_of_length_le hprefix.length_le
    rw [strip, hstart] at h
    exact ⟨hstart, h⟩
  · rintro ⟨hstart, hend⟩
    rw [strip, hstart, hend]

/-- A typed separator is taken as it is meant, and no other setting is changed, exactly if white space at its
ends is a newline, a tab or a carriage return. -/
theorem overrideAll_escape_iff (s : Settings) (t : Text) :
    s.overrideAll ["line_separator=".toList ++ escape t] = ({ s with lineSeparator := t }, none) ↔
      (∀ c ∈ t.head?, Text.isSpace c = true → c = '\n' ∨ c = '\t' ∨ c = '\r') ∧
        ∀ c ∈ t.getLast?, Text.isSpace c = true → c = '\n' ∨ c = '\t' ∨ c = '\r' := by
  rw [overrideAll_cons_of_ok (overrideText_escape s t), overrideAll_nil]
  have hset : (({ s with lineSeparator := strip t } : Settings), (none : Option OverrideError)) =
      ({ s with lineSeparator := t }, none) ↔ strip t = t := by
    simp
  rw [hset, strip_eq_self_iff]
  simp only [isBare_eq_false_iff]

/-- An equals sign, a backslash before an `n`, and a tab at the end are no trouble. -/
example : default.overrideAll ["line_separator=".toList ++ escape "=\\n\t".toList] =
    ({ default with lineSeparator := "=\\n\t".toList }, none) := by
  decide

end LineMarkup.Settings
