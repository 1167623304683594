import LineMarkup.Proofs.Path.Named
import LineMarkup.Proofs.Text.Trim

/-!
Names of files before and after the last dot, and what another extension makes of a path. It leaves the
folder and the stem, unless the path ends in two dots and an extension: without the extension that is
a double dot, which names no file.
-/

namespace LineMarkup.Path

set_option autoImplicit false

open FileTree (partsOf)

/-- The path ends in two dots and an extension. -/
def EndsInDots (p : Path) : Prop := ∃ e, lastPart p = '.' :: '.' :: e ∧ e ≠ [] ∧ '.' ∉ e

instance (p : Path) : Decidable (EndsInDots p) :=
  decidable_of_iff (lastPart p = '.' :: '.' :: (lastPart p).drop 2 ∧ (lastPart p).drop 2 ≠ [] ∧
      '.' ∉ (lastPart p).drop 2)
    ⟨fun h => ⟨_, h⟩, fun ⟨e, he, h⟩ => by rw [he]; exact ⟨rfl, h⟩⟩

/-- A stem with an extension, or alone if the extension is empty. -/
def withDot (stem extension : Path) : Path :=
  stem ++ if extension.isEmpty then [] else '.' :: extension

/-- A path whose text has lost as much at its end as its extension is long. -/
def cutExtension (p : Path) : Path :=
  match extension? p with
  | some old => p.take (p.length - old.length)
  | none => p

variable {p dir name tail stem extension : Path}

theorem splitName_append (stem : Path) (hdot : '.' ∉ extension) : splitName (stem ++ '.' :: extension) =
    if stem = [] then ('.' :: extension, none) else (stem, some extension) := by
  have hall : ∀ c ∈ extension.reverse, decide (c ≠ '.') = true := by
    intro c hc
    apply decide_eq_true
    rintro rfl
    exact hdot (List.mem_reverse.mp hc)
  have htake : ((stem ++ '.' :: extension).reverse.takeWhile (· ≠ '.')).reverse = extension := by
    rw [List.reverse_append, List.reverse_cons, List.append_assoc, List.singleton_append,
      Text.takeWhile_append_of_head hall (by simp), List.reverse_reverse]
  have hlen : (stem ++ '.' :: extension).length - extension.length - 1 = stem.length := by
    simp
    omega
  rw [splitName, htake, hlen, List.take_left]
  cases stem with
  | nil => rfl
  | cons c r =>
    rw [if_neg (List.cons_ne_nil c r), if_neg]
    simp
    omega

theorem splitName_of_not_mem (hdot : '.' ∉ name) : splitName name = (name, none) := by
  have hall : ∀ c ∈ name.reverse, decide (c ≠ '.') = true := by
    intro c hc
    apply decide_eq_true
    rintro rfl
    exact hdot (List.mem_reverse.mp hc)
  have htake : (name.reverse.takeWhile (· ≠ '.')).reverse = name := by
    have hself := Text.takeWhile_append_of_head (y := []) hall (by simp)
    rw [List.append_nil] at hself
    rw [hself, List.reverse_reverse]
  rw [splitName, htake]
  simp

/-- A name is a stem, a dot and an extension, or all of it is the stem. -/
theorem splitName_cases (name : Path) : splitName name = (name, none) ∨
    ∃ stem extension, splitName name = (stem, some extension) ∧ name = stem ++ '.' :: extension ∧
      stem ≠ [] ∧ '.' ∉ extension := by
  cases hcut : Text.cut '.' name.reverse with
  | none =>
    refine Or.inl (splitName_of_not_mem fun hm => ?_)
    exact Text.cut_eq_none_iff.mp hcut (List.mem_reverse.mpr hm)
  | some pair =>
    obtain ⟨after, before⟩ := pair
    obtain ⟨hname, hdot⟩ := Text.cut_eq_some_iff.mp hcut
    have hname : name = before.reverse ++ '.' :: after.reverse := by
      rw [← List.reverse_reverse name, hname]
      simp
    have hdot : '.' ∉ after.reverse := fun hm => hdot (List.mem_reverse.mp hm)
    have hsplit := splitName_append before.reverse hdot
    rw [← hname] at hsplit
    by_cases hb : before.reverse = []
    · rw [if_pos hb] at hsplit
      left
      rw [hsplit, hname, hb]
      rfl
    · rw [if_neg hb] at hsplit
      exact Or.inr ⟨_, _, hsplit, hname, hb, hdot⟩

theorem IsName.stem_apart (h : IsName name) : (splitName name).1 ≠ [] ∧ '/' ∉ (splitName name).1 := by
  rcases splitName_cases name with hsplit | ⟨stem, old, hsplit, hname, hstem, _⟩
  · rw [hsplit]
    exact ⟨h.ne_nil, h.apart⟩
  · rw [hsplit]
    exact ⟨hstem, fun hm => h.apart (by rw [hname]; exact List.mem_append_left _ hm)⟩

theorem withDot_eq (stem : Path) (hne : extension ≠ []) :
    withDot stem extension = stem ++ '.' :: extension := by
  obtain ⟨c, e, rfl⟩ := List.exists_cons_of_ne_nil hne
  rfl

/-- A name keeps its extension exactly if it gets the one that it has. -/
theorem withDot_eq_name_iff (hne : extension ≠ []) :
    withDot (splitName name).1 extension = name ↔ (splitName name).2 = some extension := by
  rw [withDot_eq _ hne]
  rcases splitName_cases name with hsplit | ⟨stem, old, hsplit, hname, _⟩
  · rw [hsplit]
    simp
  · rw [hsplit, hname]
    simp [eq_comm]

theorem withDot_nil (stem : Path) : withDot stem [] = stem := List.append_nil stem

theorem IsName.withDot (h : IsName name) (hne : extension ≠ []) (hslash : '/' ∉ extension) :
    IsName (withDot (splitName name).1 extension) := by
  obtain ⟨hstem, happart⟩ := h.stem_apart
  obtain ⟨c, r, hc⟩ := List.exists_cons_of_ne_nil hstem
  obtain ⟨d, e, hd⟩ := List.exists_cons_of_ne_nil hne
  rw [withDot_eq _ hne]
  refine ⟨by simp, ?_, ?_, ?_⟩
  · simp [happart, hslash]
  · simp [hc]
  · intro he
    have hlen := congrArg List.length he
    simp only [hc, hd, List.length_append, List.length_cons, List.length_nil] at hlen
    omega

/-- Given anything but a stem, a name without its extension is no name, or the stem is the name. -/
theorem fileName?_append_stem (hdir : dir = [] ∨ dir.getLast? = some '/') (h : IsName name)
    (hdot : (splitName name).1 ≠ ['.']) :
    fileName? (dir ++ (splitName name).1) = none ∨
      fileName? (dir ++ (splitName name).1) = some (splitName name).1 := by
  obtain ⟨hstem, happart⟩ := h.stem_apart
  by_cases hup : (splitName name).1 = ['.', '.']
  · rw [hup]
    exact Or.inl (fileName?_append_up hdir)
  · exact Or.inr (Named.fileName ⟨(List.append_nil _).symm, hdir, ⟨hstem, happart, hdot, hup⟩, .nil⟩)

theorem withExtension_of_fileName?_eq_none (h : fileName? p = none) (extension : Path) :
    withExtension p extension = p := by
  simp [withExtension, extension?, stem?, h]

theorem eq_of_append_dot_eq (hstem : stem ≠ []) (he : stem ++ '.' :: extension = ['.', '.']) :
    stem = ['.'] ∧ extension = [] := by
  obtain ⟨c, r, rfl⟩ := List.exists_cons_of_ne_nil hstem
  cases r with
  | nil => simpa using he
  | cons d r => simp at he

namespace Named
variable (h : Named p dir name tail)
include h

theorem stem?_eq : stem? p = some (splitName name).1 := by
  rw [stem?, h.fileName]
  rfl

theorem extension?_eq : extension? p = (splitName name).2 := by
  rw [extension?, h.fileName]
  rfl

end Named

theorem withExtension_eq_elim (p extension : Path) : withExtension p extension =
    (stem? (cutExtension p)).elim (cutExtension p) fun stem =>
      start (cutExtension p) ++ beforeLast (core (cutExtension p)) ++ stem ++
        (if extension.isEmpty then [] else '.' :: extension) := by
  rw [withExtension, cutExtension]
  cases extension? p with
  | none => cases stem? p <;> rfl
  | some old => cases stem? (p.take (p.length - old.length)) <;> rfl

theorem withExtension_of_named {k n t : Path} (hk : cutExtension p = k) (h : Named k dir n t)
    (extension : Path) : withExtension p extension = dir ++ withDot (splitName n).1 extension := by
  rw [withExtension_eq_elim, hk, h.stem?_eq, Option.elim_some, h.folder_eq, List.append_assoc]
  rfl

namespace Named
variable (h : Named p dir name tail)
include h

theorem lastPart_of_tail (hne : tail ≠ []) : lastPart p = [] ∨ lastPart p = ['.'] := by
  rw [h.eq]
  rcases h.idle.last hne with hslash | ⟨r, rfl⟩
  · obtain ⟨r, rfl⟩ := List.getLast?_eq_some_iff.mp hslash
    left
    simp [lastPart]
  · right
    simp [lastPart]

/-- A path ends in two dots and an extension if nothing stands after such a name. -/
theorem endsInDots_iff :
    EndsInDots p ↔ tail = [] ∧ ∃ e, name = '.' :: '.' :: e ∧ e ≠ [] ∧ '.' ∉ e := by
  by_cases hne : tail = []
  · have hlast : lastPart p = name := by
      rw [h.eq, hne, List.append_nil]
      exact h.lastPart_eq
    rw [EndsInDots, hlast]
    exact (and_iff_right hne).symm
  · refine ⟨?_, fun hp => absurd hp.1 hne⟩
    rintro ⟨e, he, _⟩
    rcases h.lastPart_of_tail hne with hl | hl
    · cases he.symm.trans hl
    · cases he.symm.trans hl

theorem stem?_of_endsInDots (hdots : EndsInDots p) : stem? p = some ['.'] := by
  obtain ⟨_, e, rfl, _, hdot⟩ := h.endsInDots_iff.mp hdots
  have hsplit : splitName ('.' :: '.' :: e) = (['.'], some e) := splitName_append ['.'] hdot
  rw [h.stem?_eq, hsplit]

/-- What is left of a path when the end of its text has lost as much as the old extension. -/
theorem take_eq (stem old : Path) (hname : name = stem ++ '.' :: old) :
    p.take (p.length - old.length) = dir ++ (stem ++ '.' :: old.take tail.length) ++
      tail.take (tail.length - old.length) := by
  have hp : p = (dir ++ (stem ++ ['.'])) ++ (old ++ tail) := by
    rw [h.eq, hname]
    simp
  have hlen : p.length - old.length = (dir ++ (stem ++ ['.'])).length + tail.length := by
    rw [hp]
    simp
    omega
  rw [hlen, hp, List.take_length_add_append, List.take_append]
  simp

theorem withExtension_of_endsInDots (hdots : EndsInDots p) (extension : Path) :
    withExtension p extension = dir ++ ['.', '.'] := by
  obtain ⟨rfl, e, rfl, he, hdot⟩ := h.endsInDots_iff.mp hdots
  have hsplit : splitName ('.' :: '.' :: e) = (['.'], some e) := splitName_append ['.'] hdot
  have hcut : cutExtension p = dir ++ ['.', '.'] := by
    have htake := h.take_eq ['.'] e rfl
    rw [cutExtension, h.extension?_eq, hsplit]
    simpa using htake
  rw [withExtension_eq_elim, hcut, stem?, fileName?_append_up h.folder]
  rfl

/-- Otherwise the folder and the stem stay. -/
theorem withExtension_eq (hdots : ¬ EndsInDots p) (extension : Path) :
    withExtension p extension = dir ++ withDot (splitName name).1 extension := by
  rcases splitName_cases name with hsplit | ⟨stem, old, hsplit, hname, hstem, hdot⟩
  · rw [withExtension_of_named _ h]
    rw [cutExtension, h.extension?_eq, hsplit]
  · have hdot' : '.' ∉ old.take tail.length := fun hm => hdot (List.mem_of_mem_take hm)
    have hsplit' := splitName_append stem hdot'
    rw [if_neg hstem] at hsplit'
    rw [withExtension_of_named _ ⟨h.take_eq stem old hname, h.folder, ⟨?_, ?_, ?_, ?_⟩,
      h.idle.of_prefix (List.take_prefix _ _)⟩, hsplit', hsplit]
    · rw [cutExtension, h.extension?_eq, hsplit]
    · simp
    · intro hm
      apply h.isName.apart
      rw [hname]
      simp only [List.mem_append, List.mem_cons] at hm ⊢
      exact hm.imp_right (Or.imp_right List.mem_of_mem_take)
    · intro he
      obtain ⟨c, r, rfl⟩ := List.exists_cons_of_ne_nil hstem
      simp at he
    · intro he
      obtain ⟨rfl, hold⟩ := eq_of_append_dot_eq hstem he
      rcases List.take_eq_nil_iff.mp hold with htail | rfl
      · refine hdots (h.endsInDots_iff.mpr ⟨List.length_eq_zero_iff.mp htail, old, hname, ?_, hdot⟩)
        rintro rfl
        exact h.isName.ne_dots hname
      · exact h.isName.ne_dots hname

/-- The name that another extension makes of a path. -/
theorem withExtension (hdots : ¬ EndsInDots p) (hne : extension ≠ []) (hslash : '/' ∉ extension) :
    Named (withExtension p extension) dir (withDot (splitName name).1 extension) [] :=
  ⟨(h.withExtension_eq hdots _).trans (List.append_nil _).symm, h.folder, h.isName.withDot hne hslash,
    .nil⟩

end Named

end LineMarkup.Path
