import Mathlib.Data.List.TakeWhile
import LineMarkup.Proofs.Path.Extension
import LineMarkup.Settings.Override

/-!
Where converted files go, as paths part by part: into the output folder or beside the source, under the
source's stem with the output extension. So sources with one stem meet in an output folder, and without
one if they are in the same folder. Two places are rough: sources that end in two dots and an extension
keep only the dots, and dots in front of an extension count in settings files but not in overrides.
-/

namespace LineMarkup.Settings

set_option autoImplicit false

open LineMarkup.Path (parts fileName? stem? parent? extension? withExtension withDot splitName EndsInDots Named
  IsName)

/-- Below the output folder, if there is one and the path names a file, a path is only its name. -/
def settle (outputDir : Option Path) (p : Path) : Path :=
  match outputDir with
  | some dir => (fileName? p).elim p (Path.join dir)
  | none => p

variable {s : Settings} {p a b dir name tail extension : Path}

theorem outputPath_eq (hslash : '/' ∉ s.outputExtension) (p : Path) :
    s.outputPath p = some (settle s.outputDir (withExtension p s.outputExtension)) := by
  rw [outputPath, if_neg (by simpa using hslash)]
  dsimp only
  generalize withExtension p s.outputExtension = converted
  cases s.outputDir with
  | none => rfl
  | some dir =>
    rw [settle]
    cases fileName? converted with
    | none => rfl
    | some name => rfl

theorem settle_of_fileName?_eq_none (h : fileName? p = none) (o : Option Path) : settle o p = p := by
  cases o with
  | none => rfl
  | some dir => rw [settle, h, Option.elim_none]

/-- The parts of an output path: those of the folder, and the name. -/
theorem parts_settle (h : Named p dir name tail) (o : Option Path) :
    parts (settle o p) = parts (o.getD dir) ++ [.name name] := by
  cases o with
  | none => exact h.parts
  | some folder =>
    rw [settle, h.fileName, Option.elim_some]
    exact h.isName.parts_join folder

theorem fileName?_settle (o : Option Path) (p : Path) : fileName? (settle o p) = fileName? p := by
  cases o with
  | none => rfl
  | some folder =>
    cases hp : fileName? p with
    | none => rw [settle_of_fileName?_eq_none hp, hp]
    | some name =>
      obtain ⟨dir, tail, h⟩ := Path.exists_named hp
      exact Path.fileName?_eq_some_iff.mpr ⟨_, parts_settle h (some folder)⟩

/-- In one folder, paths meet exactly if they have the same name. -/
theorem parts_settle_some_iff (h : Named p dir name tail) (folder q : Path) :
    parts (settle (some folder) p) = parts (settle (some folder) q) ↔ fileName? q = some name := by
  constructor
  · intro heq
    rw [← fileName?_settle (some folder), ← Path.fileName?_congr heq, fileName?_settle, h.fileName]
  · intro hq
    obtain ⟨dir', tail', h'⟩ := Path.exists_named hq
    rw [parts_settle h, parts_settle h']
    rfl

/-- What a source that does not end in dots is converted to. -/
theorem parts_outputPath (h : Named p dir name tail) (hdots : ¬ EndsInDots p) (hne : extension ≠ [])
    (hslash : '/' ∉ extension) (o : Option Path) :
    parts (settle o (withExtension p extension)) =
      parts (o.getD dir) ++ [.name (withDot (splitName name).1 extension)] :=
  parts_settle (h.withExtension hdots hne hslash) o

theorem parts_outputPath_of_endsInDots (h : Named p dir name tail) (hdots : EndsInDots p)
    (extension : Path) (o : Option Path) :
    parts (settle o (withExtension p extension)) = parts dir ++ [.up] := by
  rw [h.withExtension_of_endsInDots hdots,
    settle_of_fileName?_eq_none (Path.fileName?_append_up h.folder), Path.parts_append_up h.folder]

/-- Two files go to one place if they have the same stem and, without an output folder, the same parent.
A file goes to where it is if it has the output extension. Both only hold apart from sources that end in
two dots and an extension, which all go to the double dot of the folder that they are in. -/
theorem outputPaths_meet_iff (hne : s.outputExtension ≠ []) (hslash : '/' ∉ s.outputExtension)
    (ha : fileName? a ≠ none) (hb : fileName? b ≠ none) :
    ∃ x y, s.outputPath a = some x ∧ s.outputPath b = some y ∧
      (parts x = parts y ↔ stem? a = stem? b ∧ (EndsInDots a ↔ EndsInDots b) ∧
        (s.outputDir ≠ none ∧ ¬ EndsInDots a ∨ (parent? a).map parts = (parent? b).map parts)) ∧
      (s.outputDir = none →
        (parts x = parts a ↔ extension? a = some s.outputExtension ∧ ¬ EndsInDots a)) := by
  obtain ⟨aname, ha⟩ := Option.ne_none_iff_exists'.mp ha
  obtain ⟨bname, hb⟩ := Option.ne_none_iff_exists'.mp hb
  obtain ⟨adir, atail, ha⟩ := Path.exists_named ha
  obtain ⟨bdir, btail, hb⟩ := Path.exists_named hb
  refine ⟨_, _, outputPath_eq hslash a, outputPath_eq hslash b, ?_, fun ho => ?_⟩
  · obtain ⟨aq, haq, haparts⟩ := ha.exists_parent
    obtain ⟨bq, hbq, hbparts⟩ := hb.exists_parent
    rw [haq, hbq, Option.map_some, Option.map_some, haparts, hbparts, Option.some.injEq]
    by_cases hda : EndsInDots a <;> by_cases hdb : EndsInDots b
    · rw [parts_outputPath_of_endsInDots ha hda, parts_outputPath_of_endsInDots hb hdb,
        ha.stem?_of_endsInDots hda, hb.stem?_of_endsInDots hdb]
      simp [hda, hdb]
    · rw [parts_outputPath_of_endsInDots ha hda, parts_outputPath hb hdb hne hslash]
      simp [hda, hdb]
    · rw [parts_outputPath_of_endsInDots hb hdb, parts_outputPath ha hda hne hslash]
      simp [hda, hdb]
    · rw [parts_outputPath ha hda hne hslash, parts_outputPath hb hdb hne hslash, ha.stem?_eq,
        hb.stem?_eq]
      cases s.outputDir with
      | none => simp [hda, hdb, withDot, and_comm]
      | some folder => simp [hda, hdb, withDot]
  · rw [ha.extension?_eq, ← Path.withDot_eq_name_iff hne, ha.parts, ho]
    by_cases hda : EndsInDots a
    · rw [parts_outputPath_of_endsInDots ha hda]
      simp [hda]
    · rw [parts_outputPath ha hda hne hslash]
      simp [hda]

theorem outputPaths_meet_iff_spellings :
    fileName? "a/./x.hb".toList ≠ none ∧ fileName? "a//x.md".toList ≠ none ∧
      ∃ x y, default.outputPath "a/./x.hb".toList = some x ∧
        default.outputPath "a//x.md".toList = some y ∧ parts x = parts y ∧
        parts x ≠ parts "a/./x.hb".toList := by
  obtain ⟨x, y, hx, hy, hmeet, hself⟩ := outputPaths_meet_iff (s := default)
    (a := "a/./x.hb".toList) (b := "a//x.md".toList) (by decide) (by decide) (by decide) (by decide)
  refine ⟨by decide, by decide, x, y, hx, hy, hmeet.mpr (by decide), fun h => ?_⟩
  exact absurd ((hself rfl).mp h).1 (by decide)

/-- Two sources with the same stem, which do not meet in the output folder: they are not even put there. -/
theorem outputPaths_ne_of_dots :
    default.outputExtension ≠ [] ∧ '/' ∉ default.outputExtension ∧
      fileName? "x/..hb".toList ≠ none ∧ fileName? "y/..hb".toList ≠ none ∧
      stem? "x/..hb".toList = stem? "y/..hb".toList ∧
      ∃ x y, ({ default with outputDir := some "build".toList }).outputPath "x/..hb".toList = some x ∧
        ({ default with outputDir := some "build".toList }).outputPath "y/..hb".toList = some y ∧
        parts x ≠ parts y :=
  ⟨by decide, by decide, by decide, by decide, by decide, "x/..".toList, "y/..".toList, by decide,
    by decide, by decide⟩

theorem overrideAll_extension (s : Settings) (htrim : Text.trim extension = extension) :
    s.overrideAll ["output_extension=".toList ++ extension] =
      ({ s with outputExtension := extension.dropWhile (· = '.') }, none) := by
  have hcut : Text.cut '=' ("output_extension=".toList ++ extension) =
      some ("output_extension".toList, extension) :=
    Text.cut_eq_some_iff.mpr ⟨rfl, by decide⟩
  have htext : s.overrideText ("output_extension=".toList ++ extension) =
      .ok { s with outputExtension := extension.dropWhile (· = '.') } := by
    rw [overrideText, hcut]
    dsimp only
    rw [htrim]
    rfl
  rw [overrideAll, htext]
  rfl

/-- A stem that is a single dot leaves no name but that of the folder, if there is no extension. -/
theorem parts_outputPath_dot_iff (h : Named p dir name tail) (hdots : ¬ EndsInDots p)
    (hne : extension ≠ []) (hslash : '/' ∉ extension) (hstem : (splitName name).1 = ['.'])
    (o : Option Path) :
    parts (settle o (withExtension p extension)) = parts (settle o (withExtension p [])) ↔
      o ≠ none ∧ fileName? dir = some ('.' :: '.' :: extension) := by
  have hnamed := h.withExtension hdots hne hslash
  have hdot : withExtension p [] = dir ++ ['.'] := by
    rw [h.withExtension_eq hdots, hstem]
    rfl
  rw [hstem, Path.withDot_eq _ hne] at hnamed
  cases o with
  | none =>
    refine iff_of_false (fun heq => ?_) (fun hsome => hsome.1 rfl)
    rw [parts_settle hnamed, hdot] at heq
    rcases h.folder with rfl | hend
    · cases heq
    · rw [settle, Path.parts_append_dot hend] at heq
      simp at heq
  | some folder =>
    rw [parts_settle_some_iff hnamed, hdot, Path.fileName?_append_dot h.folder]
    simp

/-- With any other stem, dots in front of an extension make another name. -/
theorem parts_outputPath_dots_ne (h : Named p dir name tail) (hdots : ¬ EndsInDots p)
    (hslash : '/' ∉ extension)
    (hstem : extension.dropWhile (· = '.') = [] → (splitName name).1 ≠ ['.']) (o : Option Path) :
    parts (settle o (withExtension p ('.' :: extension))) ≠
      parts (settle o (withExtension p (extension.dropWhile (· = '.')))) := by
  have hnamed := h.withExtension hdots (List.cons_ne_nil '.' extension) (by simpa using hslash)
  have hslash' : '/' ∉ extension.dropWhile (· = '.') := fun hm =>
    hslash ((List.dropWhile_suffix _).mem hm)
  intro heq
  have hname := Path.fileName?_congr heq
  rw [fileName?_settle, fileName?_settle, hnamed.fileName] at hname
  by_cases hne : extension.dropWhile (· = '.') = []
  · rw [hne, h.withExtension_eq hdots, Path.withDot_nil] at hname
    rcases Path.fileName?_append_stem h.folder h.isName (hstem hne) with hstem | hstem
    · rw [hstem] at hname
      cases hname
    · rw [hstem, Path.withDot_eq _ (List.cons_ne_nil _ _)] at hname
      simp at hname
  · rw [(h.withExtension hdots hne hslash').fileName, Path.withDot_eq _ (List.cons_ne_nil _ _),
      Path.withDot_eq _ hne] at hname
    have hdrop : '.' :: extension = extension.dropWhile (· = '.') := by simpa using hname
    have hhead := Text.forall_head?_dropWhile (· = '.') extension '.'
    rw [← hdrop] at hhead
    simp at hhead

theorem parts_outputPath_dots_iff (p : Path) (hslash : '/' ∉ extension) (o : Option Path) :
    parts (settle o (withExtension p ('.' :: extension))) =
        parts (settle o (withExtension p (extension.dropWhile (· = '.')))) ↔
      fileName? p = none ∨ EndsInDots p ∨
        o ≠ none ∧ (∀ c ∈ extension, c = '.') ∧ stem? p = some ['.'] ∧
          (parent? p).bind fileName? = some ('.' :: '.' :: '.' :: extension) := by
  cases hp : fileName? p with
  | none =>
    rw [Path.withExtension_of_fileName?_eq_none hp, Path.withExtension_of_fileName?_eq_none hp]
    simp
  | some name =>
    obtain ⟨dir, tail, h⟩ := Path.exists_named hp
    by_cases hdots : EndsInDots p
    · rw [parts_outputPath_of_endsInDots h hdots, parts_outputPath_of_endsInDots h hdots]
      simp [hdots]
    · obtain ⟨q, hq, hqparts⟩ := h.exists_parent
      rw [hq, Option.bind_some, Path.fileName?_congr hqparts, h.stem?_eq]
      have hall : extension.dropWhile (· = '.') = [] ↔ ∀ c ∈ extension, c = '.' := by
        rw [List.dropWhile_eq_nil_iff]
        simp
      by_cases hdot : extension.dropWhile (· = '.') = [] ∧ (splitName name).1 = ['.']
      · rw [hdot.1, parts_outputPath_dot_iff h hdots (List.cons_ne_nil _ _) (by simpa using hslash) hdot.2]
        simpa [hdots, hdot.2] using fun _ _ => hall.mp hdot.1
      · refine iff_of_false (parts_outputPath_dots_ne h hdots hslash (not_and.mp hdot) o) ?_
        rw [← hall]
        simp only [hdots, Option.some.injEq, reduceCtorEq, false_or]
        exact fun hsame => hdot ⟨hsame.2.1, hsame.2.2.1⟩

/-- An extension set by a layer and the same one set by an override differ in that an override drops
dots in front. It makes no difference to a source with no name or that ends in two dots and an extension.
Otherwise it makes one, unless nothing but dots is given and the folder of the source happens to have the
name that they would make of it. -/
theorem outputPath_merge_iff_override (s : Settings) (p : Path) (hslash : '/' ∉ extension)
    (htrim : Text.trim extension = extension) :
    ∃ next, s.overrideAll ["output_extension=".toList ++ extension] = (next, none) ∧
      ∃ x y, (s.merge { outputExtension := some extension }).outputPath p = some x ∧
        next.outputPath p = some y ∧
        (parts x = parts y ↔ extension.head? ≠ some '.' ∨ fileName? p = none ∨ EndsInDots p ∨
          s.outputDir ≠ none ∧ (∀ c ∈ extension, c = '.') ∧ stem? p = some ['.'] ∧
            (parent? p).bind fileName? = some ('.' :: '.' :: extension)) := by
  have hslash' : '/' ∉ extension.dropWhile (· = '.') := fun hm =>
    hslash ((List.dropWhile_suffix _).mem hm)
  have hmerge : s.merge { outputExtension := some extension } =
      { s with outputExtension := extension } := rfl
  refine ⟨_, overrideAll_extension s htrim, _, _, outputPath_eq (by rw [hmerge]; exact hslash) p,
    outputPath_eq hslash' p, ?_⟩
  rw [hmerge]
  dsimp only
  by_cases hdot : extension.head? = some '.'
  · obtain ⟨e, rfl⟩ := List.head?_eq_some_iff.mp hdot
    have hall : (∀ c ∈ '.' :: e, c = '.') ↔ ∀ c ∈ e, c = '.' := by simp
    rw [List.dropWhile_cons_of_pos (by simp), hall,
      parts_outputPath_dots_iff p fun hm => hslash (List.mem_cons_of_mem _ hm)]
    simp
  · have hdrop : extension.dropWhile (· = '.') = extension := by
      cases extension with
      | nil => rfl
      | cons c e => exact List.dropWhile_cons_of_neg (by simpa using hdot)
    rw [hdrop]
    exact iff_of_true rfl (Or.inl hdot)

theorem outputPath_merge_iff_override_inner :
    '/' ∉ "tar=.html.".toList ∧ Text.trim "tar=.html.".toList = "tar=.html.".toList ∧
      ∃ next, default.overrideAll ["output_extension=".toList ++ "tar=.html.".toList] = (next, none) ∧
        ∃ x y, (default.merge { outputExtension := some "tar=.html.".toList }).outputPath
            "a.hb".toList = some x ∧
          next.outputPath "a.hb".toList = some y ∧ parts x = parts y := by
  have hslash : '/' ∉ "tar=.html.".toList := by decide
  have htrim : Text.trim "tar=.html.".toList = "tar=.html.".toList := by decide
  obtain ⟨next, hnext, x, y, hx, hy, hiff⟩ :=
    outputPath_merge_iff_override default "a.hb".toList hslash htrim
  exact ⟨hslash, htrim, next, hnext, x, y, hx, hy, hiff.mpr (Or.inl (by decide))⟩

/-- A layer keeps the dot in front of an extension, and there are two dots in the name. -/
theorem outputPath_merge_ne_override :
    '/' ∉ ".html".toList ∧ Text.trim ".html".toList = ".html".toList ∧
      (default.merge { outputExtension := some ".html".toList }).outputPath "a.hb".toList =
        some "a..html".toList ∧
      (default.overrideAll ["output_extension=".toList ++ ".html".toList]).2 = none ∧
      (default.overrideAll ["output_extension=".toList ++ ".html".toList]).1.outputPath "a.hb".toList =
        some "a.html".toList ∧
      parts "a..html".toList ≠ parts "a.html".toList := by
  decide

end LineMarkup.Settings
