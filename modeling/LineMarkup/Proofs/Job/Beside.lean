import LineMarkup.Proofs.Files.Reading
import LineMarkup.Proofs.Files.Trail
import LineMarkup.Proofs.Job.Requests

/-!
The two ways to the template of a document. A job puts the name that is declared into the folder that is
the parent of the document's path; a converter that is given the path puts the name after the last slash
of it. The two paths have the same parts and lead to the same file, though the second one keeps slashes
and dots that the first one lacks, so that it may be too long where the first one is not.
-/

namespace LineMarkup

set_option autoImplicit false

open FileTree (partsOf byteCount longestPath)

variable {source : Path} {name : Text}

theorem templateBeside_of_parent {q : Path} (h : source.parent? = some q) (hne : q ≠ [])
    (name : Text) : templateBeside source name = q ++ '/' :: name := by
  rw [templateBeside, h]
  cases q with
  | nil => exact absurd rfl hne
  | cons c q => rfl

theorem templateBeside_of_parent_nil (h : source.parent? = some []) (name : Text) :
    templateBeside source name = name := by
  rw [templateBeside, h]

theorem Template.location_eq (h : Template.isSource source = true) (name : Text) :
    Template.location (some source) name = .ok (source.beforeLast ++ name) := by
  rw [Template.location, Template.sourceFolder, if_pos h]
  rfl

theorem lastPart_ne_nil_of_isSource (h : Template.isSource source = true) : source.lastPart ≠ [] := by
  have hno := Template.isSource_iff.mp h
  exact Path.lastPart_ne_nil_of_last (fun hs => hno (Or.inl hs)) fun hs => hno (Or.inr (Or.inl hs))

theorem parts_templateBeside (h : Template.isSource source = true) (hdot : source.lastPart ≠ ['.'])
    (name : Text) :
    Path.parts (templateBeside source name) = Path.parts (source.beforeLast ++ name) := by
  obtain ⟨q, dots, hq⟩ := Path.exists_hasParent (lastPart_ne_nil_of_isSource h) hdot
  by_cases hne : q = []
  · subst hne
    rw [templateBeside_of_parent_nil hq.parent, hq.nil_iff.mp rfl]
    rfl
  · rw [templateBeside_of_parent hq.parent hne]
    apply Path.parts_congr
    · rw [hq.start_eq hne, Path.start_beforeLast_append (mt hq.nil_iff.mpr hne)]
    · rw [Path.partsOf_append_cons,
        Path.partsOf_append_of_slash (Path.beside_beforeLast source).2.2, hq.partsOf_eq,
        Path.counted_append, Path.counted_append, Path.counted_append,
        Path.counted_eq_nil hq.onlyDots, List.append_nil]

namespace FileTree

variable {t : FileTree} {q : Path} {dots : List Text} {at_ : Location} {content : Content}

/-- A document that can be read has a path that ends in a name, or in a double dot. -/
theorem lastPart_of_read (h : t.read source = .ok content) :
    source ≠ [] ∧ source.getLast? ≠ some '/' ∧ source.lastPart ≠ ['.'] := by
  obtain ⟨at_, hl, hfile⟩ := read_eq_ok_iff.mp h
  obtain ⟨hcheck, hwalk, hslash⟩ := locate_eq_ok_iff.mp hl
  refine ⟨(check_eq_ok_iff.mp hcheck).2.1, fun hs => ?_, fun hdot => ?_⟩
  · rw [hslash (decide_eq_true hs)] at hfile
    cases hfile
  · obtain ⟨hp, hno, hends⟩ := Path.beside_beforeLast source
    have hparts : partsOf source = partsOf source.beforeLast ++ [['.']] := by
      rw [hp, Path.partsOf_append_of_slash hends, ← hp, hdot]
      rfl
    -- A dot at the end stays at a folder.
    rw [hparts] at hwalk
    obtain ⟨_, hrest⟩ := walk_append_eq_ok hwalk
    obtain ⟨hstep, hnil⟩ := walk_cons_eq_ok hrest
    obtain rfl := Except.ok.inj hnil
    rw [goOn, if_pos rfl] at hfile
    cases (step_eq_ok hstep).1.symm.trans hfile

section
variable (hq : source.HasParent q dots) (hne : q ≠ []) (hl : t.locate source = .ok at_)
include hq hne hl

theorem check_beside (hlong : byteCount (q ++ '/' :: name) ≤ longestPath ↔
    byteCount (source.beforeLast ++ name) ≤ longestPath) :
    check (q ++ '/' :: name) = check (source.beforeLast ++ name) := by
  have hnul := (check_eq_ok_iff.mp (locate_eq_ok_iff.mp hl).1).1
  have hnulq : '\x00' ∉ q := fun hm => hnul (hq.le.subset hm)
  have hnuld : '\x00' ∉ source.beforeLast := by
    intro hm
    rw [(Path.beside_beforeLast source).1] at hnul
    exact hnul (List.mem_append_left _ hm)
  exact check_congr (by simp [hnulq, hnuld]) (by simp [mt hq.nil_iff.mpr hne]) hlong

/-- The dots before the name of a document that is there lead from its folder to its folder. -/
theorem walk_beside (hname : source.lastPart ≠ []) :
    t.walk (t.start (q ++ '/' :: name)) (partsOf (q ++ '/' :: name)) =
      t.walk (t.start (source.beforeLast ++ name)) (partsOf (source.beforeLast ++ name)) := by
  obtain ⟨hp, hno, hends⟩ := Path.beside_beforeLast source
  have hdir : source.beforeLast ≠ [] := mt hq.nil_iff.mpr hne
  have hsource : partsOf source = partsOf q ++ (dots ++ [source.lastPart]) := by
    rw [hp, Path.partsOf_append_of_slash hends, hq.partsOf_eq, ← hp, List.append_assoc,
      Path.partsOf_of_not_mem hno hname]
  have hwalk := (locate_eq_ok_iff.mp hl).2.1
  rw [hsource, start_prefix_eq t hq.le hne] at hwalk
  obtain ⟨hwalkq, hrest⟩ := walk_append_eq_ok hwalk
  have hwalkd := (walk_append_eq_ok hrest).1
  rw [foldl_goOn_onlyDots _ hq.onlyDots] at hwalkd
  have hstart : t.start (source.beforeLast ++ name) = t.start q := by
    rw [start_prefix_eq t (List.prefix_append _ name) hdir,
      ← start_prefix_eq t ⟨_, hp.symm⟩ hdir, start_prefix_eq t hq.le hne]
  rw [hstart, start_prefix_eq t (List.prefix_append q _) hne, Path.partsOf_append_cons,
    Path.partsOf_append_of_slash hends, hq.partsOf_eq, List.append_assoc, walk_append_of_ok hwalkq,
    walk_append_of_ok hwalkq, walk_append_of_ok hwalkd]

end

theorem locate_templateBeside (h : t.read source = .ok content)
    (hlong : byteCount (templateBeside source name) ≤ longestPath ↔
      byteCount (source.beforeLast ++ name) ≤ longestPath) :
    t.locate (templateBeside source name) = t.locate (source.beforeLast ++ name) := by
  obtain ⟨hsource, hslash, hdot⟩ := lastPart_of_read h
  have hname := Path.lastPart_ne_nil_of_last hsource hslash
  obtain ⟨q, dots, hq⟩ := Path.exists_hasParent hname hdot
  obtain ⟨at_, hl, _⟩ := read_eq_ok_iff.mp h
  by_cases hne : q = []
  · subst hne
    rw [templateBeside_of_parent_nil hq.parent, hq.nil_iff.mp rfl]
    rfl
  · rw [templateBeside_of_parent hq.parent hne] at hlong ⊢
    have hlast := (Path.beside_beforeLast source).2.2.resolve_left (mt hq.nil_iff.mpr hne)
    refine locate_congr (check_beside hq hne hl hlong) (walk_beside hq hne hl hname) ?_
    rw [endsInSlash, endsInSlash, List.append_cons, List.getLast?_append, List.getLast?_concat,
      List.getLast?_append, hlast]

end FileTree

/-- A text from a file, with a wording of its own for what cannot be read. -/
def Files.loadWith {m : Type → Type} [Monad m] [Files m] (wording : Path → FileError → String)
    (p : Path) : m (Except String Text) :=
  relabel (wording p) (Files.readText p)

theorem Files.readsOnly_loadWith (wording : Path → FileError → String) (p : Path) :
    ReadsOnly (Files.loadWith wording p) := (Files.readsOnly_readText p).relabel

theorem Files.answer_loadWith_eq_ok_iff {wording : Path → FileError → String} {t : FileTree} {p : Path}
    {text : Text} : t.answer (Files.loadWith wording p) = .ok text ↔ t.read p = .ok (.text text) :=
  (Files.readsOnly_readText p).answer_relabel_eq_ok_iff.trans Files.answer_readText_eq_ok_iff

theorem Document.finish_eq_ok_iff {d : Document} {location html : Text}
    {answer : Except String Text} :
    d.finish location answer = .ok html ↔
      ∃ template, answer = .ok template ∧ d.fill template = .ok html := by
  cases answer with
  | error reason => simp [Document.finish]
  | ok template => simp [Document.finish]

theorem Converter.readsOnly_convert (c : Converter) (lines : List Line) {path : Option Text} {dir : Text}
    (hl : ∀ name, Template.location path name = .ok (dir ++ name))
    {load : Text → StateM FileTree (Except String Text)} (hload : ∀ p, ReadsOnly (load p)) :
    ReadsOnly (c.convert lines path load) := by
  rw [c.convert_of_location hl]
  split
  next => exact .pure _
  next name _ => exact (hload (dir ++ name)).bind fun _ => .pure _

theorem Converter.answer_convert_eq_ok_iff (c : Converter) {lines : List Line} {path : Option Text}
    {dir html : Text} (hl : ∀ name, Template.location path name = .ok (dir ++ name))
    {load : Text → StateM FileTree (Except String Text)} (hload : ∀ p, ReadsOnly (load p))
    (t : FileTree) :
    t.answer (c.convert lines path load) = .ok html ↔
      ∃ name template, (c.render lines).template? = some name ∧
        t.answer (load (dir ++ name)) = .ok template ∧
        (c.render lines).fill template = .ok html := by
  rw [c.convert_of_location hl]
  cases (c.render lines).template? with
  | none => exact ⟨fun h => (by cases h), fun ⟨_, _, h, _⟩ => (by cases h)⟩
  | some name =>
    dsimp only
    rw [(hload (dir ++ name)).answer_bind]
    refine Document.finish_eq_ok_iff.trans ?_
    simp

namespace Job

variable {c : Converter} {t : FileTree} {lines : List Line} {html : Text}

theorem answer_readSource_eq_ok_iff :
    t.answer (readSource source) = .ok lines ↔
      ∃ text : Text, t.read source = .ok (.text text) ∧ text.lines = lines := by
  simp only [← Files.answer_readText_eq_ok_iff]
  rw [readSource, (Files.readsOnly_readText source).answer_bind]
  cases t.answer (Files.readText source) with
  | error e => exact ⟨fun h => (by cases h), fun ⟨_, h, _⟩ => (by cases h)⟩
  | ok text =>
    constructor
    · exact fun h => ⟨text, rfl, Except.ok.inj h⟩
    · rintro ⟨_, h, rfl⟩
      cases h
      rfl

/-- How a job loads the template that its source declares. -/
def loadTemplate {m : Type → Type} [Monad m] [Files m] (source : Path) (name : Text) :
    m (Except String Text) := do
  match ← readTemplate source name with
  | .ok text => pure (.ok text)
  | .error fault => pure (.error fault.message)

theorem loadTemplate_eq {m : Type → Type} [Monad m] [Files m] (source : Path) (name : Text) :
    loadTemplate (m := m) source name = relabel TemplateFault.message
      (relabel (TemplateFault.mk (templateBeside source name))
        (Files.readText (templateBeside source name))) := by
  have hread : readTemplate (m := m) source name = relabel (TemplateFault.mk (templateBeside source name))
      (Files.readText (templateBeside source name)) :=
    bind_eq_relabel (fun _ => rfl) fun _ => rfl
  rw [← hread]
  exact bind_eq_relabel (fun _ => rfl) fun _ => rfl

theorem readsOnly_loadTemplate (source : Path) (name : Text) :
    ReadsOnly (loadTemplate source name) := by
  rw [loadTemplate_eq]
  exact (Files.readsOnly_readText _).relabel.relabel

theorem readsOnly_convert_beside (c : Converter) (lines : List Line) (source : Path) :
    ReadsOnly (c.convert lines none (loadTemplate source)) :=
  c.readsOnly_convert lines Template.location_none (readsOnly_loadTemplate source)

theorem answer_loadTemplate_eq_ok_iff {name text : Text} :
    t.answer (loadTemplate source name) = .ok text ↔
      t.read (templateBeside source name) = .ok (.text text) := by
  have hreads := Files.readsOnly_readText (templateBeside source name)
  rw [loadTemplate_eq, hreads.relabel.answer_relabel_eq_ok_iff, hreads.answer_relabel_eq_ok_iff,
    Files.answer_readText_eq_ok_iff]

theorem readsOnly_readSource (source : Path) : ReadsOnly (readSource source) := by
  refine (Files.readsOnly_readText source).bind fun answer => ?_
  cases answer with
  | error e => exact .pure _
  | ok text => exact .pure _

theorem answer_convertFile_of_source (hsource : t.answer (readSource source) = .ok lines) :
    t.answer (convertFile c source) = t.answer
      (relabel (JobError.convert source) (c.convert lines none (loadTemplate source))) := by
  rw [convertFile, (readsOnly_readSource source).answer_bind, hsource]
  exact congrArg t.answer (bind_eq_relabel (fun _ => rfl) fun _ => rfl)

theorem answer_convertFile_eq_ok_iff (hsource : t.answer (readSource source) = .ok lines) :
    t.answer (convertFile c source) = .ok html ↔
      ∃ name template, (c.render lines).template? = some name ∧
        t.read (templateBeside source name) = .ok (.text template) ∧
        (c.render lines).fill template = .ok html := by
  rw [answer_convertFile_of_source hsource,
    (readsOnly_convert_beside c lines source).answer_relabel_eq_ok_iff,
    c.answer_convert_eq_ok_iff Template.location_none (readsOnly_loadTemplate source) t]
  simp only [List.nil_append, answer_loadTemplate_eq_ok_iff]

/-- The path which a converter finds for a template has the parts of the path at which a job looks for
it. A document file is converted by a job if and only if it is converted with its path named, to the same
HTML, provided that neither or each of the two paths is too long for a file system. -/
theorem convertFile_iff_convert (c : Converter) (wording : Path → FileError → String) :
    (∀ (source : Path) (name : Text), Template.isSource source = true →
      source.lastPart ≠ ['.'] → ∃ path, Template.location (some source) name = .ok path ∧
        Path.parts (templateBeside source name) = Path.parts path) ∧
    ∀ (t : FileTree) (source : Path) (lines : List Line), '\n' ∉ source →
      t.answer (readSource source) = .ok lines →
      (∀ name path, (c.render lines).template? = some name →
        Template.location (some source) name = .ok path →
        (byteCount (templateBeside source name) ≤ longestPath ↔ byteCount path ≤ longestPath)) →
      ∀ html : Text, t.answer (convertFile c source) = .ok html ↔
        t.answer (c.convert lines (some source) (Files.loadWith wording)) = .ok html := by
  constructor
  · intro source name h hdot
    exact ⟨_, Template.location_eq h name, parts_templateBeside h hdot name⟩
  · intro t source lines hnewline hlines hlong html
    obtain ⟨text, hread, _⟩ := answer_readSource_eq_ok_iff.mp hlines
    obtain ⟨hne, hslash, _⟩ := FileTree.lastPart_of_read hread
    have hsource : Template.isSource source = true :=
      Template.isSource_iff.mpr fun h => h.elim hne fun h => h.elim hslash hnewline
    have hl := Template.location_eq hsource
    rw [answer_convertFile_eq_ok_iff hlines,
      c.answer_convert_eq_ok_iff hl (Files.readsOnly_loadWith wording) t]
    simp only [Files.answer_loadWith_eq_ok_iff]
    refine exists₂_congr fun name template => and_congr_right fun hname => ?_
    have hsame := FileTree.locate_templateBeside hread (hlong name _ hname (hl name))
    rw [FileTree.read_congr hsame]

def nested : FileTree :=
  ⟨[], [(["d".toList], .folder),
    (["d".toList, "x.hb".toList], .ofText "@template: t.html\nhi\n".toList),
    (["d".toList, "t.html".toList], .ofText "[\x7b\x7bcontent\x7d\x7d]".toList)]⟩

theorem convertFile_iff_convert_nested :
    (∃ path, Template.location (some "./d/.//x.hb".toList) "t.html".toList = .ok path ∧
      Path.parts (templateBeside "./d/.//x.hb".toList "t.html".toList) = Path.parts path) ∧
    nested.answer (convertFile ⟨⟨0, 0, 0⟩, ['\n']⟩ "./d/.//x.hb".toList) =
      .ok "[<p>\nhi\n</p>]".toList ∧
    nested.answer (Converter.convert ⟨⟨0, 0, 0⟩, ['\n']⟩ ["@template: t.html".toList, "hi".toList]
        (some "./d/.//x.hb".toList) (Files.loadWith fun _ e => e.message)) =
      .ok "[<p>\nhi\n</p>]".toList := by
  obtain ⟨hparts, hiff⟩ := convertFile_iff_convert ⟨⟨0, 0, 0⟩, ['\n']⟩ fun _ e => e.message
  have hfile : nested.answer (convertFile ⟨⟨0, 0, 0⟩, ['\n']⟩ "./d/.//x.hb".toList) =
      .ok "[<p>\nhi\n</p>]".toList := by decide +kernel
  refine ⟨hparts _ _ (by decide) (by decide), hfile, (hiff nested _ _ (by decide) ?_ ?_ _).mp hfile⟩
  · decide +kernel
  · intro name path hname hpath
    have ht : (Converter.render ⟨⟨0, 0, 0⟩, ['\n']⟩ ["@template: t.html".toList,
        "hi".toList]).template? = some "t.html".toList := by decide +kernel
    cases ht.symm.trans hname
    cases hpath
    decide

theorem byteCount_slashes (k : Nat) : byteCount ('/' :: List.replicate k '/') = k + 1 := by
  rw [← List.replicate_succ]
  induction k with
  | zero => rfl
  | succ k ih =>
    rw [List.replicate_succ', FileTree.byteCount_append, ih]
    rfl

section
variable {k : Nat} (hp : source = "d".toList ++ '/' :: List.replicate k '/' ++ "x.hb".toList)
include hp

theorem parent_of_slashes :
    source.beforeLast = "d".toList ++ '/' :: List.replicate k '/' ∧ source.parent? = some "d".toList :=
  Path.parent_eq_of_slashes hp (by decide) (by simp [Path.Trimmed]) (by decide) (by decide) (by decide)
    (by decide)

theorem read_of_slashes (hk : k + 6 ≤ longestPath) :
    nested.read source = .ok (.text "@template: t.html\nhi\n".toList) := by
  have hparts : partsOf source = ["d".toList, "x.hb".toList] := by
    rw [hp, List.append_assoc, List.cons_append, Path.partsOf_append_cons, Path.partsOf_slashes_append]
    rfl
  have hstart : nested.start source = [] := by
    rw [hp]
    rfl
  have hslash : FileTree.endsInSlash source = false := by
    rw [hp, FileTree.endsInSlash, List.getLast?_append]
    rfl
  refine FileTree.read_eq_ok_iff.mpr ⟨["d".toList, "x.hb".toList],
    FileTree.locate_eq_ok_iff.mpr ⟨FileTree.check_eq_ok_iff.mpr ⟨?_, ?_, ?_⟩, ?_, ?_⟩, by decide⟩
  · simp [hp]
  · simp [hp]
  · have hd : byteCount "d".toList = 1 ∧ byteCount "x.hb".toList = 4 := by decide
    rw [hp, FileTree.byteCount_append, FileTree.byteCount_append, byteCount_slashes]
    omega
  · rw [hstart, hparts]
    decide
  · intro h
    cases hslash.symm.trans h

/-- A job reads the template of such a document by a short path, and converts it. With the path of the
document named, a path is found for the template that may be too long. -/
theorem convertFile_ne_convert_of_slashes (hk : k + 6 ≤ longestPath) (hlong : longestPath < k + 8) :
    Template.isSource source = true ∧ source.lastPart ≠ ['.'] ∧
      nested.answer (readSource source) = .ok ["@template: t.html".toList, "hi".toList] ∧
      nested.answer (convertFile ⟨⟨0, 0, 0⟩, ['\n']⟩ source) = .ok "[<p>\nhi\n</p>]".toList ∧
      ∀ html, nested.answer (Converter.convert ⟨⟨0, 0, 0⟩, ['\n']⟩
        ["@template: t.html".toList, "hi".toList] (some source)
        (Files.loadWith fun _ e => e.message)) ≠ .ok html := by
  obtain ⟨hbefore, hparent⟩ := parent_of_slashes hp
  have hread := read_of_slashes hp hk
  obtain ⟨hne, hslash, hdot⟩ := FileTree.lastPart_of_read hread
  have hsource : Template.isSource source = true :=
    Template.isSource_iff.mpr fun h => h.elim hne fun h => h.elim hslash (by simp [hp])
  have hlines : nested.answer (readSource source) = .ok ["@template: t.html".toList, "hi".toList] :=
    answer_readSource_eq_ok_iff.mpr ⟨_, hread, by decide⟩
  have hname : (Converter.render ⟨⟨0, 0, 0⟩, ['\n']⟩ ["@template: t.html".toList,
      "hi".toList]).template? = some "t.html".toList := by decide +kernel
  refine ⟨hsource, hdot, hlines, ?_, fun html h => ?_⟩
  · refine (answer_convertFile_eq_ok_iff hlines).mpr
      ⟨_, "[\x7b\x7bcontent\x7d\x7d]".toList, hname, ?_, ?_⟩
    · rw [templateBeside_of_parent hparent (by decide)]
      decide
    · decide +kernel
  · obtain ⟨name, template, hname', hread', _⟩ := (Converter.answer_convert_eq_ok_iff _
      (Template.location_eq hsource) (Files.readsOnly_loadWith _) nested).mp h
    cases hname.symm.trans hname'
    obtain ⟨at_, hl, _⟩ := FileTree.read_eq_ok_iff.mp (Files.answer_loadWith_eq_ok_iff.mp hread')
    have hshort := (FileTree.check_eq_ok_iff.mp (FileTree.locate_eq_ok_iff.mp hl).1).2.2
    have hd : byteCount "d".toList = 1 ∧ byteCount "t.html".toList = 6 := by decide
    rw [hbefore, FileTree.byteCount_append, FileTree.byteCount_append, byteCount_slashes] at hshort
    omega

end

/-- Slashes alone can keep a document from being converted with its path named, while a job converts it. -/
theorem exists_convertFile_ne_convert :
    ∃ (source : Path) (lines : List Line) (html : Text),
      Template.isSource source = true ∧ source.lastPart ≠ ['.'] ∧
      nested.answer (readSource source) = .ok lines ∧
      nested.answer (convertFile ⟨⟨0, 0, 0⟩, ['\n']⟩ source) = .ok html ∧
      ∀ html', nested.answer (Converter.convert ⟨⟨0, 0, 0⟩, ['\n']⟩ lines (some source)
        (Files.loadWith fun _ e => e.message)) ≠ .ok html' :=
  ⟨"d".toList ++ '/' :: List.replicate 4089 '/' ++ "x.hb".toList, _, _,
    convertFile_ne_convert_of_slashes rfl (by decide) (by decide)⟩

end Job

end LineMarkup
