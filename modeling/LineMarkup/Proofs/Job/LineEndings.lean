import LineMarkup.Proofs.Job.Beside
import LineMarkup.Proofs.Text.Lines

/-!
How the lines of a source end. A job sees of its source nothing but the lines, so the HTML, or what is
wrong with the document, is the same whether newlines have carriage returns before them or not, and
whether the last line is ended or not. A template that is the source itself is used as the text it is.
-/

namespace LineMarkup.Job

set_option autoImplicit false

variable {t u : FileTree} {source : Path} {at_ : Location} {text text' name : Text}

theorem answer_loadTemplate_congr
    (h : u.read (templateBeside source name) = t.read (templateBeside source name)) :
    u.answer (loadTemplate source name) = t.answer (loadTemplate source name) := by
  have hreads := Files.readsOnly_readText (templateBeside source name)
  have htext : u.answer (Files.readText (templateBeside source name)) =
      t.answer (Files.readText (templateBeside source name)) := by
    rw [Files.answer_readText, Files.answer_readText, h]
  rw [loadTemplate_eq]
  exact hreads.relabel.answer_relabel_congr (hreads.answer_relabel_congr htext)

/-- A conversion depends on the lines of the source and on what is read for the template alone. -/
theorem answer_convertFile_congr (c : Converter)
    (hsource : u.answer (readSource source) = t.answer (readSource source))
    (htemplate : ∀ lines name, t.answer (readSource source) = .ok lines →
      (c.render lines).template? = some name →
      u.read (templateBeside source name) = t.read (templateBeside source name)) :
    u.answer (convertFile c source) = t.answer (convertFile c source) := by
  cases hlines : t.answer (readSource source) with
  | error e =>
    refine (readsOnly_readSource source).answer_bind_congr hsource ?_
    rw [hlines]
    rfl
  | ok lines =>
    have hconvert : u.answer (c.convert lines none (loadTemplate source)) =
        t.answer (c.convert lines none (loadTemplate source)) := by
      rw [c.convert_none]
      cases hname : (c.render lines).template? with
      | none => rfl
      | some name =>
        have hload := answer_loadTemplate_congr (htemplate lines name hlines hname)
        exact (readsOnly_loadTemplate source name).answer_bind_congr hload rfl
    rw [answer_convertFile_of_source hlines, answer_convertFile_of_source (hsource.trans hlines)]
    exact (readsOnly_convert_beside c lines source).answer_relabel_congr hconvert

theorem answer_readSource_of_file (hl : t.locate source = .ok at_)
    (hfile : t.get? at_ = some (.ofText text)) : t.answer (readSource source) = .ok text.lines :=
  answer_readSource_eq_ok_iff.mpr ⟨text, FileTree.read_eq_ok_iff.mpr ⟨at_, hl, hfile⟩, rfl⟩

/-- Another text with the same lines leads to the same result. -/
theorem answer_convertFile_put (c : Converter) (hl : t.locate source = .ok at_)
    (hfile : t.get? at_ = some (.ofText text)) (hlines : text'.lines = text.lines)
    (hother : ∀ name, (c.render text.lines).template? = some name →
      t.locate (templateBeside source name) ≠ .ok at_) :
    (t.put at_ (.ofText text')).answer (convertFile c source) = t.answer (convertFile c source) := by
  have hne := FileTree.ne_nil_of_file hfile
  have hsource := answer_readSource_of_file hl hfile
  have hself : (t.put at_ (.ofText text')).get? at_ = some (.ofText text') := by
    rw [FileTree.get?_put t at_ _ hne, if_pos rfl]
  have hput := answer_readSource_of_file ((FileTree.locate_put_file hfile _ source).trans hl) hself
  have hsame : (t.put at_ (.ofText text')).answer (readSource source) =
      t.answer (readSource source) := by
    rw [hsource, ← hlines]
    exact hput
  refine answer_convertFile_congr c hsame fun lines name hread hname => ?_
  obtain rfl := Except.ok.inj (hsource.symm.trans hread)
  exact FileTree.read_put_file hfile (hother name hname) _

/-- The lines of a source hold no newlines. If its template is another file, and it holds no carriage
return, then a carriage return before each newline, or a newline at the end of a last line that has none,
changes nothing of what comes of its conversion. -/
theorem convertFile_lineEndings (c : Converter) :
    (∀ (t : FileTree) (source : Path) (lines : List Line),
      t.answer (readSource source) = .ok lines → ∀ line ∈ lines, '\n' ∉ line) ∧
    ∀ (t : FileTree) (source : Path) (at_ : Location) (text : Text),
      t.locate source = .ok at_ → t.get? at_ = some (.ofText text) → '\r' ∉ text →
      (∀ name, (c.render text.lines).template? = some name →
        t.locate (templateBeside source name) ≠ .ok at_) →
      (t.put at_ (.ofText text.withReturns)).answer (convertFile c source) =
          t.answer (convertFile c source) ∧
        (text ≠ [] → text.getLast? ≠ some '\n' →
          (t.put at_ (.ofText (text ++ ['\n']))).answer (convertFile c source) =
            t.answer (convertFile c source)) := by
  constructor
  · intro t source lines hlines line hline
    obtain ⟨text, _, rfl⟩ := answer_readSource_eq_ok_iff.mp hlines
    exact Text.newline_not_mem_of_mem_lines hline
  · intro t source at_ text hl hfile hreturn hother
    refine ⟨answer_convertFile_put c hl hfile (Text.lines_withReturns hreturn) hother, ?_⟩
    intro hne hlast
    have hno : text.getLast? ≠ some '\r' := fun h => hreturn (List.mem_of_getLast? h)
    exact answer_convertFile_put c hl hfile (Text.lines_append_newline hne hlast hno) hother

def unended : FileTree :=
  ⟨[], [(["d".toList], .folder),
    (["d".toList, "x.hb".toList], .ofText "@template: t.html\n# a\n\nb".toList),
    (["d".toList, "t.html".toList], .ofText "[\x7b\x7bcontent\x7d\x7d]".toList)]⟩

theorem convertFile_lineEndings_unended :
    unended.answer (readSource "d/x.hb".toList) =
        .ok ["@template: t.html".toList, "# a".toList, [], ['b']] ∧
      (∀ line ∈ ["@template: t.html".toList, "# a".toList, [], ['b']], '\n' ∉ line) ∧
      (unended.put ["d".toList, "x.hb".toList]
          (.ofText "@template: t.html\r\n# a\r\n\r\nb".toList)).answer
        (convertFile ⟨⟨0, 0, 0⟩, ['\n']⟩ "d/x.hb".toList) = .ok "[<h1>a</h1>\n<p>\nb\n</p>]".toList ∧
      (unended.put ["d".toList, "x.hb".toList]
          (.ofText "@template: t.html\n# a\n\nb\n".toList)).answer
        (convertFile ⟨⟨0, 0, 0⟩, ['\n']⟩ "d/x.hb".toList) = .ok "[<h1>a</h1>\n<p>\nb\n</p>]".toList := by
  obtain ⟨hlines, hsame⟩ := convertFile_lineEndings ⟨⟨0, 0, 0⟩, ['\n']⟩
  have hread : unended.answer (readSource "d/x.hb".toList) =
      .ok ["@template: t.html".toList, "# a".toList, [], ['b']] := by decide +kernel
  have hfile : unended.answer (convertFile ⟨⟨0, 0, 0⟩, ['\n']⟩ "d/x.hb".toList) =
      .ok "[<h1>a</h1>\n<p>\nb\n</p>]".toList := by decide +kernel
  have hname : (Converter.render ⟨⟨0, 0, 0⟩, ['\n']⟩
      (Text.lines "@template: t.html\n# a\n\nb".toList)).template? = some "t.html".toList := by
    decide +kernel
  have hother : unended.locate (templateBeside "d/x.hb".toList "t.html".toList) ≠
      .ok ["d".toList, "x.hb".toList] := by decide +kernel
  obtain ⟨hreturns, hended⟩ := hsame unended "d/x.hb".toList ["d".toList, "x.hb".toList]
    "@template: t.html\n# a\n\nb".toList (by decide +kernel) (by decide +kernel) (by decide) <| by
      intro name hdeclared
      obtain rfl := Option.some.inj (hname.symm.trans hdeclared)
      exact hother
  exact ⟨hread, hlines _ _ _ hread, hreturns.trans hfile,
    (hended (by decide) (by decide)).trans hfile⟩

end LineMarkup.Job
