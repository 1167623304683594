import LineMarkup.Proofs.Text.Substitution

/-!
Texts taken apart at every occurrence of a character, and into lines. A line ends in a newline, with or
without a carriage return before it, or else with the text. So a text has the same lines whichever of
the two endings is written, and whether or not its last line is ended.
-/

namespace LineMarkup.Text

set_option autoImplicit false

theorem splitOn_ne_nil (sep : Char) (t : Text) : splitOn sep t ≠ [] := by
  cases t with
  | nil => simp [splitOn]
  | cons c r =>
    rw [splitOn]
    split
    next => simp
    next => split <;> simp

theorem splitOn_append_cons (sep : Char) (a b : Text) :
    splitOn sep (a ++ sep :: b) = splitOn sep a ++ splitOn sep b := by
  induction a with
  | nil => simp [splitOn]
  | cons c a ih =>
    rw [List.cons_append, splitOn, splitOn, ih]
    split
    next => rfl
    next =>
      cases h : splitOn sep a with
      | nil => exact absurd h (splitOn_ne_nil sep a)
      | cons part parts => rfl

theorem splitOn_of_not_mem {sep : Char} {t : Text} (h : sep ∉ t) : splitOn sep t = [t] := by
  induction t with
  | nil => rfl
  | cons c t ih =>
    rw [List.mem_cons, not_or] at h
    rw [splitOn, if_neg (Ne.symm h.1), ih h.2]

/-- A text and its lines, by the ways in which a line can end. -/
inductive Lined : Text → List Text → Prop where
  | nil : Lined [] []
  | unended {line : Text} : line ≠ [] → '\n' ∉ line → Lined line [line]
  | newline {line r : Text} {ls : List Text} : '\n' ∉ line → line.getLast? ≠ some '\r' →
      Lined r ls → Lined (line ++ '\n' :: r) (line :: ls)
  | carriageReturn {line r : Text} {ls : List Text} : '\n' ∉ line → Lined r ls →
      Lined (line ++ '\r' :: '\n' :: r) (line :: ls)

/-- A text with a carriage return before each of its newlines. -/
def withReturns (t : Text) : Text := t.flatMap fun c => if c = '\n' then ['\r', '\n'] else [c]

variable {t line : Text} {ls : List Text}

theorem lines_of_not_mem (hne : line ≠ []) (h : '\n' ∉ line) : line.lines = [line] := by
  rw [lines, splitOn_of_not_mem h]
  cases line with
  | nil => exact absurd rfl hne
  | cons c line => rfl

theorem lines_append_cons (h : '\n' ∉ line) (r : Text) :
    (line ++ '\n' :: r).lines =
      (if line.getLast? = some '\r' then line.dropLast else line) :: r.lines := by
  obtain ⟨part, parts, hr⟩ := List.exists_cons_of_ne_nil (splitOn_ne_nil '\n' r)
  rw [lines, lines, splitOn_append_cons, splitOn_of_not_mem h, hr, List.singleton_append,
    List.getLast?_cons_cons, List.dropLast_cons_cons, List.map_cons]
  split <;> rfl

theorem Lined.lines_eq (h : Lined t ls) : t.lines = ls := by
  induction h with
  | nil => rfl
  | unended hne hline => exact lines_of_not_mem hne hline
  | newline hline hlast _ ih => rw [lines_append_cons hline, if_neg hlast, ih]
  | @carriageReturn line r ls hline _ ih =>
    -- Up to its newline the line has the carriage return, which is then taken off.
    have hmem : '\n' ∉ line ++ ['\r'] := by simpa using hline
    rw [List.append_cons, lines_append_cons hmem, List.getLast?_concat, if_pos rfl,
      List.dropLast_concat, ih]

theorem exists_lined (t : Text) : ∃ ls, Lined t ls := by
  induction hn : t.length using Nat.strongRecOn generalizing t with
  | _ n ih =>
    cases hcut : cut '\n' t with
    | none =>
      by_cases hne : t = []
      · exact ⟨[], hne ▸ .nil⟩
      · exact ⟨[t], .unended hne (cut_eq_none_iff.mp hcut)⟩
    | some p =>
      obtain ⟨line, r⟩ := p
      obtain ⟨rfl, hline⟩ := cut_eq_some_iff.mp hcut
      obtain ⟨ls, hr⟩ := ih r.length (by rw [← hn]; simp; omega) r rfl
      by_cases hlast : line.getLast? = some '\r'
      · obtain ⟨line, rfl⟩ := List.getLast?_eq_some_iff.mp hlast
        refine ⟨line :: ls, ?_⟩
        rw [List.append_assoc]
        exact .carriageReturn (fun hm => hline (List.mem_append_left _ hm)) hr
      · exact ⟨line :: ls, .newline hline hlast hr⟩

theorem lined_iff : Lined t ls ↔ t.lines = ls := by
  constructor
  · exact Lined.lines_eq
  · rintro rfl
    obtain ⟨ls, h⟩ := exists_lined t
    rwa [h.lines_eq]

theorem newline_not_mem_of_mem_lines (hline : line ∈ t.lines) : '\n' ∉ line := by
  have h : Lined t t.lines := lined_iff.mpr rfl
  generalize t.lines = ls at h hline
  induction h with
  | nil => cases hline
  | unended _ h =>
    rwa [List.mem_singleton.mp hline]
  | newline h _ _ ih =>
    rcases List.mem_cons.mp hline with rfl | hline
    · exact h
    · exact ih hline
  | carriageReturn h _ ih =>
    rcases List.mem_cons.mp hline with rfl | hline
    · exact h
    · exact ih hline

theorem withReturns_of_not_mem (h : '\n' ∉ t) : withReturns t = t := by
  refine flatMap_eq_self fun c hc => if_neg ?_
  rintro rfl
  exact h hc

theorem withReturns_append_cons (h : '\n' ∉ line) (r : Text) :
    withReturns (line ++ '\n' :: r) = line ++ '\r' :: '\n' :: withReturns r := by
  rw [withReturns, List.flatMap_append, List.flatMap_cons, if_pos rfl]
  exact congrArg (· ++ '\r' :: '\n' :: withReturns r) (withReturns_of_not_mem h)

theorem lines_withReturns (h : '\r' ∉ t) : (withReturns t).lines = t.lines := by
  have hlined : Lined t t.lines := lined_iff.mpr rfl
  apply lined_iff.mp
  generalize t.lines = ls at hlined
  induction hlined with
  | nil => exact .nil
  | unended hne hline =>
    rw [withReturns_of_not_mem hline]
    exact .unended hne hline
  | newline hline _ _ ih =>
    rw [withReturns_append_cons hline]
    exact .carriageReturn hline (ih fun hm => h (by simp [hm]))
  | carriageReturn _ _ _ => exact absurd (by simp) h

/-- A newline that ends the last line adds no line. -/
theorem lines_append_newline (hne : t ≠ []) (hnewline : t.getLast? ≠ some '\n')
    (hreturn : t.getLast? ≠ some '\r') : (t ++ ['\n']).lines = t.lines := by
  have hlined : Lined t t.lines := lined_iff.mpr rfl
  apply lined_iff.mp
  generalize t.lines = ls at hlined
  induction hlined with
  | nil => exact absurd rfl hne
  | unended _ hline => exact .newline hline hreturn .nil
  | @newline line r ls hline hlast _ ih =>
    cases r with
    | nil => exact absurd List.getLast?_concat hnewline
    | cons c r =>
      have hrest := ih (List.cons_ne_nil c r) (by simpa using hnewline) (by simpa using hreturn)
      rw [List.append_assoc]
      exact .newline hline hlast hrest
  | @carriageReturn line r ls hline _ ih =>
    cases r with
    | nil => exact absurd (by simp) hnewline
    | cons c r =>
      have hrest := ih (List.cons_ne_nil c r) (by simpa using hnewline) (by simpa using hreturn)
      rw [List.append_assoc]
      exact .carriageReturn hline hrest

end LineMarkup.Text
