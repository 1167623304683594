import LineMarkup.Proofs.Job.Batch

/-!
What a batch leaves where it was to write. Destinations are found for each source by itself, so two of
them may be one file; it then holds the HTML that was written last, whatever the results say.
-/

namespace LineMarkup

set_option autoImplicit false

namespace Batch

variable {c : Converter} {settings : Settings} {sources : List Path} {jobs : List Job}
  {t u : FileTree} {trace : List (Nat × Event)} {results : List (Except JobError (Option Text))}
  {printed : List Text}

/-- Every source of a successful batch has come out as HTML, which was written to its path. -/
theorem exists_html (hplan : Job.plan settings none false sources = some jobs)
    (h : Batch c jobs t trace results u) (hok : Job.outcome results = .ok printed) :
    ∃ html : Nat → Text, ∀ i source, sources[i]? = some source →
      Converts c source (share i trace) (html i) ∧
      ∃ path, settings.outputPath source = some path ∧
        (path, html i) ∈ writes (trace.map Prod.snd) := by
  have hone : ∀ i, ∃ html, ∀ source, sources[i]? = some source →
      Converts c source (share i trace) html ∧
      ∃ path, settings.outputPath source = some path ∧
        (path, html) ∈ writes (trace.map Prod.snd) := by
    intro i
    cases hs : sources[i]? with
    | none => exact ⟨[], fun source hsource => by cases hsource⟩
    | some source =>
      obtain ⟨path, hpath, hjob⟩ := Job.exists_job_of_plan hplan hs
      obtain ⟨r, hr⟩ := h.exists_result hjob
      obtain ⟨html?, rfl⟩ := Job.exists_ok_of_outcome hok hr
      obtain ⟨html, hconverts, hw⟩ := h.mem_writes_of_ok hjob hr
      refine ⟨html, fun source' hsource => ?_⟩
      cases hsource
      exact ⟨hconverts, path, hpath, hw⟩
  choose html hhtml using hone
  exact ⟨html, hhtml⟩

end Batch

namespace Job

/-- A successful batch leaves the HTML of every source at its path if and only if sources whose paths
lead to one file have the same HTML. The batch always has a run, and what is said holds of all. -/
theorem delivers_iff (c : Converter) {settings : Settings} {sources : List Path} {jobs : List Job}
    (hplan : plan settings none false sources = some jobs) (t : FileTree) :
    (∃ trace, Batch c jobs t trace (runOn c jobs t).1 (runOn c jobs t).2) ∧
    ∀ trace results u printed, Batch c jobs t trace results u → outcome results = .ok printed →
      ∃ html : Nat → Text,
        (∀ i source, sources[i]? = some source → Converts c source (share i trace) (html i)) ∧
        ((∀ i source, sources[i]? = some source →
            ∃ path, settings.outputPath source = some path ∧ u.read path = .ok (.text (html i))) ↔
          ∀ i j source source' path path', sources[i]? = some source → sources[j]? = some source' →
            settings.outputPath source = some path → settings.outputPath source' = some path' →
            u.locate path = u.locate path' → html i = html j) := by
  refine ⟨Batch.exists_runOn c jobs t, ?_⟩
  intro trace results u printed h hok
  obtain ⟨html, hhtml⟩ := h.exists_html hplan hok
  refine ⟨html, fun i source hs => (hhtml i source hs).1, ?_⟩
  constructor
  · intro hread i j source source' path path' hi hj hpath hpath' hl
    obtain ⟨q, hq, hri⟩ := hread i source hi
    obtain ⟨q', hq', hrj⟩ := hread j source' hj
    cases hq.symm.trans hpath
    cases hq'.symm.trans hpath'
    have hsame : u.read path = u.read path' := by rw [FileTree.read, FileTree.read, hl]
    rw [hri, hrj] at hsame
    exact Content.text.inj (Except.ok.inj hsame)
  · intro hsame i source hs
    obtain ⟨hconverts, path, hpath, hw⟩ := hhtml i source hs
    refine ⟨path, hpath, ?_⟩
    obtain ⟨at_, hl, content, hfile⟩ := h.answers.locate_of_mem_writes hw
    -- Whichever source was written there last, its path leads to the same file.
    obtain ⟨text, hlast⟩ := exists_lastWrite? hw hl
    obtain ⟨path', hw', hl'⟩ := mem_of_lastWrite? hlast
    obtain ⟨j, job, hjob, hd, hconverts'⟩ := h.converts_of_mem_writes hw'
    obtain ⟨hs', hpath'⟩ := source_of_plan hplan hjob
    have htext : html i = text := by
      rw [hsame i j source job.source path path' hs hs' hpath (hpath' path' hd).2 (hl.trans hl'.symm)]
      exact (hhtml j job.source hs').1.unique hconverts'
    have hget := h.answers.get?_eq (show u.get? at_ ≠ some .folder by rw [hfile]; simp)
    rw [hlast] at hget
    rw [FileTree.read_eq_ok_iff, htext]
    exact ⟨at_, hl, hget⟩

/-- Two documents whose names differ in the extension, a third one, and their template. -/
def namesakes : FileTree :=
  ⟨[], [(["a.hb".toList], .ofText "@template: t\n1\n".toList),
    (["a.md".toList], .ofText "@template: t\n2\n".toList),
    (["b.hb".toList], .ofText "@template: t\n3\n".toList),
    (["t".toList], .ofText "\x7b\x7bcontent\x7d\x7d".toList)]⟩

theorem delivers_iff_namesakes :
    ∃ jobs, plan Settings.default none false ["a.hb".toList, "b.hb".toList] = some jobs ∧
      outcome (runOn ⟨⟨0, 0, 0⟩, ['\n']⟩ jobs namesakes).1 = .ok [] ∧
      ∃ trace, Batch ⟨⟨0, 0, 0⟩, ['\n']⟩ jobs namesakes trace
          (runOn ⟨⟨0, 0, 0⟩, ['\n']⟩ jobs namesakes).1 (runOn ⟨⟨0, 0, 0⟩, ['\n']⟩ jobs namesakes).2 ∧
        ∃ html : Nat → Text, ∀ i source, ["a.hb".toList, "b.hb".toList][i]? = some source →
          Converts ⟨⟨0, 0, 0⟩, ['\n']⟩ source (share i trace) (html i) ∧
          ∃ path, Settings.default.outputPath source = some path ∧
            (runOn ⟨⟨0, 0, 0⟩, ['\n']⟩ jobs namesakes).2.read path = .ok (.text (html i)) := by
  have hplan : plan Settings.default none false ["a.hb".toList, "b.hb".toList] =
      some [⟨"a.hb".toList, .file "a.html".toList⟩, ⟨"b.hb".toList, .file "b.html".toList⟩] := by
    decide
  have hok : outcome (runOn ⟨⟨0, 0, 0⟩, ['\n']⟩ [⟨"a.hb".toList, .file "a.html".toList⟩,
      ⟨"b.hb".toList, .file "b.html".toList⟩] namesakes).1 = .ok [] := by decide +kernel
  obtain ⟨⟨trace, hbatch⟩, hall⟩ := delivers_iff ⟨⟨0, 0, 0⟩, ['\n']⟩ hplan namesakes
  obtain ⟨html, hconverts, hiff⟩ := hall _ _ _ _ hbatch hok
  refine ⟨_, hplan, hok, trace, hbatch, html, fun i source hs => ⟨hconverts i source hs, ?_⟩⟩
  have hapart : (runOn ⟨⟨0, 0, 0⟩, ['\n']⟩ [⟨"a.hb".toList, .file "a.html".toList⟩,
        ⟨"b.hb".toList, .file "b.html".toList⟩] namesakes).2.locate "a.html".toList ≠
      (runOn ⟨⟨0, 0, 0⟩, ['\n']⟩ [⟨"a.hb".toList, .file "a.html".toList⟩,
        ⟨"b.hb".toList, .file "b.html".toList⟩] namesakes).2.locate "b.html".toList := by
    decide +kernel
  have hpaths : ∀ i source path, ["a.hb".toList, "b.hb".toList][i]? = some source →
      Settings.default.outputPath source = some path →
      i = 0 ∧ path = "a.html".toList ∨ i = 1 ∧ path = "b.html".toList := by
    intro i source path hs hpath
    rcases i with _ | _ | i
    · cases hs
      exact Or.inl ⟨rfl, (Option.some.inj hpath).symm.trans (by decide)⟩
    · cases hs
      exact Or.inr ⟨rfl, (Option.some.inj hpath).symm.trans (by decide)⟩
    · cases hs
  refine hiff.mpr ?_ i source hs
  intro i j source source' path path' hi hj hpath hpath' hl
  rcases hpaths i source path hi hpath with ⟨rfl, rfl⟩ | ⟨rfl, rfl⟩
  · rcases hpaths j source' path' hj hpath' with ⟨rfl, rfl⟩ | ⟨rfl, rfl⟩
    · rfl
    · exact absurd hl hapart
  · rcases hpaths j source' path' hj hpath' with ⟨rfl, rfl⟩ | ⟨rfl, rfl⟩
    · exact absurd hl.symm hapart
    · rfl

/-- Two documents are converted to one file. Nothing fails, and the HTML of the first is lost. -/
theorem exists_lost_output :
    ∃ jobs path html, plan Settings.default none false ["a.hb".toList, "a.md".toList] = some jobs ∧
      ["a.hb".toList, "a.md".toList].Nodup ∧
      outcome (runOn ⟨⟨0, 0, 0⟩, ['\n']⟩ jobs namesakes).1 = .ok [] ∧
      ((convertFile (m := StateM FileTree) ⟨⟨0, 0, 0⟩, ['\n']⟩ "a.hb".toList).run namesakes).1 =
        .ok html ∧
      Settings.default.outputPath "a.hb".toList = some path ∧
      (runOn ⟨⟨0, 0, 0⟩, ['\n']⟩ jobs namesakes).2.read path ≠ .ok (.text html) := by
  refine ⟨[⟨"a.hb".toList, .file "a.html".toList⟩, ⟨"a.md".toList, .file "a.html".toList⟩],
    "a.html".toList, "<p>\n1\n</p>".toList, ?_, ?_, ?_, ?_, ?_, ?_⟩
  · decide
  · decide
  · decide +kernel
  · decide +kernel
  · decide
  · decide +kernel

end Job

end LineMarkup
