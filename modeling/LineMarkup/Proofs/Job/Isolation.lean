import LineMarkup.Proofs.Job.Batch

/-!
How far a batch reaches, and how it reports. All that it changes are the destinations of documents that
were converted, and the folders above them; a job that comes to no HTML changes nothing; and the errors
are those of the jobs, in order.
-/

namespace LineMarkup

set_option autoImplicit false

theorem Event.Happens.of_read {p : Path} {answer : Except FileError Content} {s s' : FileTree}
    (h : Event.Happens ⟨.read p, answer⟩ s s') : s' = s :=
  ((Prod.mk.injEq _ _ _ _).mp h).2.symm

namespace Job

variable {c : Converter} {job : Job} {es : List Event} {r : Except JobError (Option Text)}
  {results : List (Except JobError (Option Text))}

/-- Folders are made only above a destination, and only once the HTML for it is there. -/
theorem Record.above_of_makeFolder {e : Event} {dir : Path} (h : Record c job es r) (he : e ∈ es)
    (hdir : e.request = .makeFolder dir) :
    ∃ path html, job.destination = .file path ∧ Converts c job.source es html ∧ dir.Above path := by
  rcases h.cases_of_mem he with ⟨p, answer, rfl, _⟩ |
    ⟨path, html, hd, hconverts, ⟨dir', habove, hdir' | hdir'⟩ | hw⟩
  · cases hdir
  · cases hdir.symm.trans hdir'
    exact ⟨path, html, hd, hconverts, habove⟩
  · cases hdir.symm.trans hdir'
  · cases hdir.symm.trans hw

/-- A job that fails before it writes has only read. -/
theorem Record.read_of_unconverted {cause : JobError} (h : Record c job es (.error cause))
    (hcause : ∀ path e, cause ≠ .unwritable path e) {e : Event} (he : e ∈ es) :
    ∃ p answer, e = ⟨.read p, answer⟩ := by
  cases h with
  | unconverted hreads _ =>
    obtain ⟨p, answer, heq, _⟩ := hreads e he
    exact ⟨p, answer, heq⟩
  | noFolder => exact absurd rfl (hcause _ _)
  | refused => exact absurd rfl (hcause _ _)

theorem failures_eq_nil_iff : failures results = [] ↔ ∀ r ∈ results, ∃ html?, r = .ok html? := by
  rw [failures, List.filterMap_eq_nil_iff]
  refine forall₂_congr fun r _ => ?_
  cases r with
  | error e => simp
  | ok html? => simp

theorem length_failures : (failures results).length = results.countP fun r => !r.isOk := by
  induction results with
  | nil => rfl
  | cons r results ih =>
    cases r with
    | error e => exact (congrArg (· + 1) ih).trans (List.countP_cons_of_pos rfl).symm
    | ok html? => exact ih.trans (List.countP_cons_of_neg Bool.false_ne_true).symm

/-- The job of one source. -/
def planned? (settings : Settings) (output : Option Path) (source : Path) : Option Job :=
  match output with
  | some path => some ⟨source, .file path⟩
  | none => (settings.outputPath source).map fun path => ⟨source, .file path⟩

theorem plan_eq_mapM (settings : Settings) (output : Option Path) (sources : List Path) :
    plan settings output false sources = sources.mapM (planned? settings output) := rfl

theorem exists_planned {settings : Settings} {output : Option Path}
    (h : output = none → '/' ∉ settings.outputExtension) (source : Path) :
    ∃ path, planned? settings output source = some ⟨source, .file path⟩ := by
  cases output with
  | some path => exact ⟨path, rfl⟩
  | none =>
    have hslash : ¬ settings.outputExtension.contains '/' = true := by simpa using h rfl
    have hpath : ∃ path, settings.outputPath source = some path := by
      rw [Settings.outputPath, if_neg hslash]
      dsimp only
      split
      next => exact ⟨_, rfl⟩
      next => exact ⟨_, rfl⟩
    obtain ⟨path, hpath⟩ := hpath
    refine ⟨path, ?_⟩
    rw [planned?, hpath]
    rfl

/-- There is a job for each source, unless an extension that is needed holds a slash. -/
theorem exists_plan {settings : Settings} {output : Option Path}
    (h : output = none → '/' ∉ settings.outputExtension) (sources : List Path) :
    ∃ jobs, plan settings output false sources = some jobs ∧ jobs.map Job.source = sources := by
  induction sources with
  | nil => exact ⟨[], rfl, rfl⟩
  | cons source sources ih =>
    obtain ⟨path, hpath⟩ := exists_planned h source
    obtain ⟨jobs, hjobs, hsources⟩ := ih
    refine ⟨⟨source, .file path⟩ :: jobs, ?_, congrArg (source :: ·) hsources⟩
    rw [plan_eq_mapM] at hjobs ⊢
    rw [List.mapM_cons, hpath, hjobs]
    rfl

theorem map_source_output (sources : List Path) :
    (sources.map fun source => (⟨source, .output⟩ : Job)).map source = sources := by
  rw [List.map_map]
  exact List.map_id sources

theorem plan_output (settings : Settings) (output : Option Path) (sources : List Path) :
    plan settings output true sources = some (sources.map fun source => ⟨source, .output⟩) := by
  induction sources with
  | nil => rfl
  | cons source sources ih =>
    rw [plan] at ih ⊢
    rw [List.mapM_cons, ih]
    rfl

end Job

namespace Batch

variable {c : Converter} {jobs : List Job} {t u : FileTree} {trace : List (Nat × Event)}
  {results : List (Except JobError (Option Text))} (h : Batch c jobs t trace results u)
include h

/-- Where a tree differs after a batch, there is the HTML of a document or a folder above it. -/
theorem changed {at_ : Location} (hne : u.get? at_ ≠ t.get? at_) :
    ∃ i source path html, jobs[i]? = some ⟨source, .file path⟩ ∧
      Converts c source (share i trace) html ∧
      (u.locate path = .ok at_ ∧ u.get? at_ = some (.ofText html) ∨
        t.get? at_ = none ∧ u.get? at_ = some .folder ∧
          ∃ dir, dir.Above path ∧ u.locate dir = .ok at_) := by
  by_cases hfolder : u.get? at_ = some .folder
  · rcases h.answers.folder_cases hfolder with ht | ⟨hnone, e, dir, he, hdir, hl⟩
    · exact absurd (hfolder.trans ht.symm) hne
    · obtain ⟨⟨i, e⟩, hmem, rfl⟩ := List.mem_map.mp he
      obtain ⟨⟨source, destination⟩, r, hjob, _, hrecord⟩ := h.record hmem
      obtain ⟨path, html, rfl, hconverts, habove⟩ :=
        hrecord.above_of_makeFolder (mem_share.mpr hmem) hdir
      exact ⟨i, source, path, html, hjob, hconverts, Or.inr ⟨hnone, hfolder, dir, habove, hl⟩⟩
  · have hget := h.answers.get?_eq hfolder
    cases hlast : lastWrite? u at_ (writes (trace.map Prod.snd)) with
    | none =>
      rw [hlast] at hget
      exact absurd hget hne
    | some html =>
      rw [hlast] at hget
      obtain ⟨path, hw, hl⟩ := mem_of_lastWrite? hlast
      obtain ⟨i, ⟨source, destination⟩, hjob, rfl, hconverts⟩ := h.converts_of_mem_writes hw
      exact ⟨i, source, path, html, hjob, hconverts, Or.inl ⟨hl, hget⟩⟩

theorem read_of_unconverted {i : Nat} {cause : JobError} (hr : results[i]? = some (.error cause))
    (hcause : ∀ path e, cause ≠ .unwritable path e) {e : Event} (he : (i, e) ∈ trace) :
    ∃ p answer, e = ⟨.read p, answer⟩ := by
  obtain ⟨job, r, _, hr', hrecord⟩ := h.record he
  cases hr.symm.trans hr'
  exact hrecord.read_of_unconverted hcause (mem_share.mpr he)

end Batch

end LineMarkup
