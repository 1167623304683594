import LineMarkup.Proofs.Document.Line
import LineMarkup.Proofs.Template.Placeholder

/-!
The values of a document: for every name, the value on the last line that declares it.
-/

namespace LineMarkup

set_option autoImplicit false

/-- Some line is a declaration of `name`. -/
def Declares (source : List Line) (name : Text) : Prop :=
  ∃ line ∈ source, ∃ value, Declaration.parse? line = some ⟨name, value⟩

/-- The last line that is a declaration of `name` declares it as `value`. -/
def LastDeclares (source : List Line) (name value : Text) : Prop :=
  ∃ before line after, source = before ++ line :: after ∧
    Declaration.parse? line = some ⟨name, value⟩ ∧ ¬ Declares after name

variable {source : List Line} {line : Line} {name value : Text}

theorem declares_cons_iff : Declares (line :: source) name ↔
    (∃ value, Declaration.parse? line = some ⟨name, value⟩) ∨ Declares source name := by
  simp [Declares]

theorem lastDeclares_cons_iff : LastDeclares (line :: source) name value ↔
    LastDeclares source name value ∨
      (Declaration.parse? line = some ⟨name, value⟩ ∧ ¬ Declares source name) := by
  constructor
  · rintro ⟨before, l, after, he, hl, hafter⟩
    cases before with
    | nil =>
      obtain ⟨rfl, rfl⟩ := List.cons.inj he
      exact Or.inr ⟨hl, hafter⟩
    | cons b before =>
      obtain ⟨rfl, rfl⟩ := List.cons.inj he
      exact Or.inl ⟨before, l, after, rfl, hl, hafter⟩
  · rintro (⟨before, l, after, rfl, hl, hafter⟩ | ⟨hl, hafter⟩)
    · exact ⟨line :: before, l, after, rfl, hl, hafter⟩
    · exact ⟨[], line, source, rfl, hl, hafter⟩

theorem not_lastDeclares_nil : ¬ LastDeclares [] name value := by
  rintro ⟨before, l, after, he, _⟩
  simp at he

theorem declares_iff_exists : Declares source name ↔ ∃ value, LastDeclares source name value := by
  induction source with
  | nil => simp [Declares, not_lastDeclares_nil]
  | cons line rest ih =>
    simp only [declares_cons_iff, lastDeclares_cons_iff, exists_or, exists_and_right, ih]
    by_cases hrest : ∃ value, LastDeclares rest name value
    · simp [hrest]
    · simp [hrest]

/-- A declaration is an at sign, a name, a colon and a value, which starts after white space. -/
theorem Declaration.parse?_eq_some_iff : Declaration.parse? line = some ⟨name, value⟩ ↔
    ∃ rest, line = '@' :: (name ++ ':' :: rest) ∧ Template.IsName name ∧
      value = Text.trimStart rest ∧ '\n' ∉ value := by
  constructor
  · intro h
    unfold Declaration.parse? at h
    split at h
    next r =>
      split at h
      next w rest hw =>
        dsimp only at h
        split at h
        · simp at h
        next hc =>
          obtain ⟨rfl, rfl⟩ := Declaration.mk.inj (Option.some.inj h)
          obtain ⟨hname, hrest⟩ := Prod.mk.inj hw
          simp only [Bool.or_eq_true, List.isEmpty_iff, List.contains_iff_mem, not_or] at hc
          refine ⟨rest, ?_, ⟨hc.1, ?_⟩, rfl, hc.2⟩
          · rw [← hname, ← hrest, List.takeWhile_append_dropWhile]
          · rw [← hname]
            exact List.all_eq_true.mp List.all_takeWhile
      next => simp at h
    next => simp at h
  · rintro ⟨rest, rfl, hname, rfl, hn⟩
    have hw := Template.spanWord_append_cons hname.2 (d := ':') (by decide) rest
    simp [Declaration.parse?, hw, hname.1, hn]

theorem Declaration.isName_of_parse? (h : Declaration.parse? line = some ⟨name, value⟩) :
    Template.IsName name := by
  obtain ⟨_, _, hname, _⟩ := Declaration.parse?_eq_some_iff.mp h
  exact hname

/-- Whatever is declared has a name that a placeholder can hold. -/
theorem LastDeclares.isName (h : LastDeclares source name value) : Template.IsName name := by
  obtain ⟨_, _, _, _, hl, _⟩ := h
  exact Declaration.isName_of_parse? hl

theorem Variables.get?_record (vars : Variables) (d : Declaration) (name : Text) :
    (vars.record d).get? name = if name = d.name then some d.value else vars.get? name :=
  vars.get?_set d.name d.value name

namespace Converter

theorem values_render (c : Converter) (source : List Line) :
    (c.render source).values = Variables.ofDeclarations (source.filterMap c.declaration?) := by
  rw [render, Paragraph.filterMap_tag c.declaration?_openTag c.declaration?_closeTag]

/-- What recording the declarations of a source makes of a name: its last value, or what it had. -/
theorem get?_foldl_record (c : Converter) (source : List Line) (vars : Variables) (name : Text) :
    (∀ raw, LastDeclares source name raw →
      ((source.filterMap c.declaration?).foldl Variables.record vars).get? name =
        some (Keyword.expand c.now raw)) ∧
    (¬ Declares source name →
      ((source.filterMap c.declaration?).foldl Variables.record vars).get? name =
        vars.get? name) := by
  induction source generalizing vars with
  | nil => exact ⟨fun raw h => absurd h not_lastDeclares_nil, fun _ => rfl⟩
  | cons line rest ih =>
    rw [List.filterMap_cons, declaration?]
    cases hl : Declaration.parse? line with
    | none =>
      simp only [lastDeclares_cons_iff, declares_cons_iff, hl, Option.map_none]
      simpa using ih vars
    | some d =>
      obtain ⟨n, raw⟩ := d
      rw [Option.map_some]
      dsimp only
      rw [List.foldl_cons]
      obtain ⟨hlast, hnone⟩ := ih (vars.record ⟨n, Keyword.expand c.now raw⟩)
      rw [Variables.get?_record] at hnone
      constructor
      · intro value h
        rcases lastDeclares_cons_iff.mp h with h | ⟨hv, hrest⟩
        · exact hlast value h
        · obtain ⟨rfl, rfl⟩ := Declaration.mk.inj (Option.some.inj (hl.symm.trans hv))
          rw [hnone hrest, if_pos rfl]
      · intro h
        rw [declares_cons_iff, not_or] at h
        have hne : name ≠ n := by
          rintro rfl
          exact h.1 ⟨raw, hl⟩
        rw [hnone h.2, if_neg hne]

theorem get?_values_of_lastDeclares (c : Converter) (h : LastDeclares source name value) :
    (c.render source).values.get? name = some (Keyword.expand c.now value) := by
  rw [values_render]
  exact (c.get?_foldl_record source Variables.empty name).1 value h

theorem get?_values_of_not_declares (c : Converter) (h : ¬ Declares source name) :
    (c.render source).values.get? name = none := by
  rw [values_render]
  exact (c.get?_foldl_record source Variables.empty name).2 h

end Converter

end LineMarkup
