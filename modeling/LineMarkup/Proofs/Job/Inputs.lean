import LineMarkup.Proofs.Job.Batch

/-!
What a batch does to the files that it reads. It reads sources and the templates which they declare, and
writes HTML to the paths of its sources; nothing keeps the two apart, so a file that was read holds the
HTML that was last written to it, if any was.
-/

namespace LineMarkup

set_option autoImplicit false

/-- A run has read the file at a location, by where the paths lead at the end. -/
def ReadsAt (u : FileTree) (trace : List (Nat × Event)) (at_ : Location) : Prop :=
  ∃ i p content, (i, ⟨.read p, .ok content⟩) ∈ trace ∧ u.locate p = .ok at_

namespace Batch

variable {c : Converter} {settings : Settings} {toOutput : Bool} {sources : List Path}
  {jobs : List Job} {t u : FileTree} {trace : List (Nat × Event)}
  {results : List (Except JobError (Option Text))} {at_ : Location}

/-- A file that was read holds the HTML that was last written to it, or what it held before. -/
theorem get?_of_readsAt (h : Batch c jobs t trace results u) (hread : ReadsAt u trace at_) :
    u.get? at_ =
      ((lastWrite? u at_ (writes (trace.map Prod.snd))).map .ofText).or (t.get? at_) := by
  obtain ⟨i, p, content, hmem, hl⟩ := hread
  obtain ⟨found, hfound, content', hfile⟩ :=
    h.answers.locate_of_mem_read (List.mem_map.mpr ⟨_, hmem, rfl⟩)
  cases hl.symm.trans hfound
  exact h.answers.get?_eq (by rw [hfile]; simp)

end Batch

namespace Job

/-- A batch reads its sources and the templates which they declare, and writes their HTML to their
paths. The files that it reads are as before if and only if each of them that was written to held just
the HTML that was last written there. The batch always has a run, and what is said holds of all. -/
theorem inputs_kept_iff (c : Converter) {settings : Settings} {toOutput : Bool}
    {sources : List Path} {jobs : List Job}
    (hplan : plan settings none toOutput sources = some jobs) (t : FileTree) :
    (∃ trace, Batch c jobs t trace (runOn c jobs t).1 (runOn c jobs t).2) ∧
    ∀ trace results u, Batch c jobs t trace results u →
      (∀ i p answer, (i, ⟨.read p, answer⟩) ∈ trace →
        ∃ source, sources[i]? = some source ∧ IsInput c source (share i trace) p) ∧
      (∀ path html, (path, html) ∈ writes (trace.map Prod.snd) →
        toOutput = false ∧ ∃ i source, sources[i]? = some source ∧
          settings.outputPath source = some path ∧ Converts c source (share i trace) html) ∧
      ((∀ at_, ReadsAt u trace at_ → u.get? at_ = t.get? at_) ↔
        ∀ at_ html, ReadsAt u trace at_ →
          lastWrite? u at_ (writes (trace.map Prod.snd)) = some html →
          t.get? at_ = some (.ofText html)) := by
  refine ⟨Batch.exists_runOn c jobs t, ?_⟩
  intro trace results u h
  refine ⟨?_, ?_, ?_⟩
  · intro i p answer he
    obtain ⟨job, hjob, hinput⟩ := h.isInput_of_read he
    exact ⟨job.source, (source_of_plan hplan hjob).1, hinput⟩
  · intro path html hw
    obtain ⟨i, job, hjob, hd, hconverts⟩ := h.converts_of_mem_writes hw
    obtain ⟨hs, hdest⟩ := source_of_plan hplan hjob
    exact ⟨(hdest path hd).1, i, job.source, hs, (hdest path hd).2, hconverts⟩
  · constructor
    · intro hkept at_ html hread hlast
      have hget := h.get?_of_readsAt hread
      rw [hlast] at hget
      exact (hkept at_ hread).symm.trans hget
    · intro hsame at_ hread
      have hget := h.get?_of_readsAt hread
      cases hlast : lastWrite? u at_ (writes (trace.map Prod.snd)) with
      | none =>
        rw [hlast] at hget
        exact hget
      | some html =>
        rw [hlast] at hget
        exact hget.trans (hsame at_ html hread hlast).symm

/-- A document that takes the file to which it is converted for its template. -/
def selfTemplate : FileTree :=
  ⟨[], [(["page.hb".toList], .ofText "@template: page.html\nhello\n".toList),
    (["page.html".toList], .ofText "[\x7b\x7bcontent\x7d\x7d]".toList)]⟩

theorem inputs_kept_iff_selfTemplate :
    ∃ jobs, plan Settings.default none false ["page.hb".toList] = some jobs ∧
      ∃ trace, Batch ⟨⟨0, 0, 0⟩, ['\n']⟩ jobs selfTemplate trace
          (runOn ⟨⟨0, 0, 0⟩, ['\n']⟩ jobs selfTemplate).1
          (runOn ⟨⟨0, 0, 0⟩, ['\n']⟩ jobs selfTemplate).2 ∧
        (∀ i p answer, (i, ⟨.read p, answer⟩) ∈ trace →
          IsInput ⟨⟨0, 0, 0⟩, ['\n']⟩ "page.hb".toList (share i trace) p) ∧
        ((∀ at_, ReadsAt (runOn ⟨⟨0, 0, 0⟩, ['\n']⟩ jobs selfTemplate).2 trace at_ →
            (runOn ⟨⟨0, 0, 0⟩, ['\n']⟩ jobs selfTemplate).2.get? at_ = selfTemplate.get? at_) ↔
          ∀ at_ html, ReadsAt (runOn ⟨⟨0, 0, 0⟩, ['\n']⟩ jobs selfTemplate).2 trace at_ →
            lastWrite? (runOn ⟨⟨0, 0, 0⟩, ['\n']⟩ jobs selfTemplate).2 at_
              (writes (trace.map Prod.snd)) = some html →
            selfTemplate.get? at_ = some (.ofText html)) := by
  have hplan : plan Settings.default none false ["page.hb".toList] =
      some [⟨"page.hb".toList, .file "page.html".toList⟩] := by decide
  obtain ⟨⟨trace, hbatch⟩, hall⟩ := inputs_kept_iff ⟨⟨0, 0, 0⟩, ['\n']⟩ hplan selfTemplate
  obtain ⟨hreads, _, hiff⟩ := hall _ _ _ hbatch
  refine ⟨_, hplan, trace, hbatch, ?_, hiff⟩
  intro i p answer he
  obtain ⟨source, hs, hinput⟩ := hreads i p answer he
  obtain rfl := List.mem_singleton.mp (List.mem_of_getElem? hs)
  exact hinput

/-- The template of a document, which was read as such, holds the HTML afterwards. -/
theorem exists_overwritten_template :
    ∃ jobs lines name template html, plan Settings.default none false ["page.hb".toList] = some jobs ∧
      ((readSource (m := StateM FileTree) "page.hb".toList).run selfTemplate).1 = .ok lines ∧
      (Converter.render ⟨⟨0, 0, 0⟩, ['\n']⟩ lines).template? = some name ∧
      ((readTemplate (m := StateM FileTree) "page.hb".toList name).run selfTemplate).1 =
        .ok template ∧
      (runOn ⟨⟨0, 0, 0⟩, ['\n']⟩ jobs selfTemplate).2.read (templateBeside "page.hb".toList name) =
        .ok (.text html) ∧
      html ≠ template := by
  refine ⟨[⟨"page.hb".toList, .file "page.html".toList⟩],
    ["@template: page.html".toList, "hello".toList], "page.html".toList,
    "[\x7b\x7bcontent\x7d\x7d]".toList, "[<p>\nhello\n</p>]".toList, ?_, ?_, ?_, ?_, ?_, ?_⟩
  · decide
  · decide +kernel
  · decide +kernel
  · decide +kernel
  · decide +kernel
  · decide

end Job

end LineMarkup
