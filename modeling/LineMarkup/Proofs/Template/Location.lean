import LineMarkup.Template.Location

/-!
Where a template is looked for, said by the shape of the document's path.
-/

namespace LineMarkup.Template

set_option autoImplicit false

/-- No file can have the path: it is empty, ends in a slash or holds a newline. -/
def NoFile (path : Text) : Prop := path = [] ∨ path.getLast? = some '/' ∨ '\n' ∈ path

/-- What a path holds up to its last slash; nothing without a slash, or without a path. -/
def Beside : Option Text → Text → Prop
  | none, dir => dir = []
  | some path, dir =>
    ∃ file, path = dir ++ file ∧ '/' ∉ file ∧ (dir = [] ∨ dir.getLast? = some '/')

variable {source : Option Text} {path dir : Text}

theorem isSource_iff : isSource path = true ↔ ¬ NoFile path := by
  simp [isSource, NoFile, not_or, and_assoc]

theorem folder_eq (h : Beside (some path) dir) : folder path = dir := by
  obtain ⟨file, rfl, hfile, hdir⟩ := h
  have hpos : ∀ c ∈ file.reverse, decide (c ≠ '/') = true := by
    intro c hc
    apply decide_eq_true
    rintro rfl
    exact hfile (List.mem_reverse.mp hc)
  rw [folder, List.reverse_append, List.dropWhile_append_of_pos hpos]
  rcases hdir with rfl | hlast
  · rfl
  · obtain ⟨d, rfl⟩ := List.getLast?_eq_some_iff.mp hlast
    rw [List.reverse_append, List.reverse_singleton, List.singleton_append,
      List.dropWhile_cons_of_neg (by simp), List.reverse_cons, List.reverse_reverse]

theorem exists_beside (source : Option Text) : ∃ dir, Beside source dir := by
  cases source with
  | none => exact ⟨[], rfl⟩
  | some path =>
    refine ⟨folder path, (path.reverse.takeWhile (· ≠ '/')).reverse, ?_, ?_, ?_⟩
    · rw [folder, ← List.reverse_append, List.takeWhile_append_dropWhile, List.reverse_reverse]
    · intro hm
      have hp := List.all_eq_true.mp List.all_takeWhile _ (List.mem_reverse.mp hm)
      exact of_decide_eq_true hp rfl
    · rw [folder, List.reverse_eq_nil_iff, List.getLast?_reverse]
      by_cases hd : path.reverse.dropWhile (· ≠ '/') = []
      · exact Or.inl hd
      · right
        have hh := List.head_dropWhile_not (· ≠ '/') hd
        rw [List.head?_eq_some_head hd]
        simpa using hh

theorem location_none (name : Text) : location none name = .ok ([] ++ name) := rfl

theorem location_of_noFile (h : NoFile path) (name : Text) :
    location (some path) name = .error ⟨path⟩ := by
  have hs : ¬ isSource path = true := fun hs => isSource_iff.mp hs h
  rw [location, sourceFolder, if_neg hs]
  rfl

theorem location_of_file (h : ∀ path, source = some path → ¬ NoFile path) (hd : Beside source dir)
    (name : Text) : location source name = .ok (dir ++ name) := by
  cases source with
  | none =>
    obtain rfl : dir = [] := hd
    rfl
  | some path =>
    rw [location, sourceFolder, if_pos (isSource_iff.mpr (h path rfl)), folder_eq hd]
    rfl

end LineMarkup.Template
