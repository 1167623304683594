import LineMarkup.Proofs.Fallible
import LineMarkup.Proofs.Job.Requests
import Mathlib.Data.List.Induction

/-!
Batches of jobs that run side by side. Requests of one job may come between those of another in every
way, and the jobs one after the other are one such way. In all of them a job reads its inputs only, and
what is written is the HTML of a source at its destination.
-/

namespace LineMarkup

set_option autoImplicit false

/-- The part of a trace that one of its jobs has. -/
def share (i : Nat) (trace : List (Nat × Event)) : List Event :=
  trace.filterMap fun e => if e.1 = i then some e.2 else none

/-- A run of a batch on a tree. The trace has the requests of all jobs, each with the number of the job
that makes it; the tree answers them one after the other, and each job does what it does on the answers
that it gets. -/
structure Batch (c : Converter) (jobs : List Job) (t : FileTree) (trace : List (Nat × Event))
    (results : List (Except JobError (Option Text))) (u : FileTree) : Prop where
  answers : Answers t (trace.map Prod.snd) u
  length_eq : results.length = jobs.length
  lt : ∀ i e, (i, e) ∈ trace → i < jobs.length
  run : ∀ i job r, jobs[i]? = some job → results[i]? = some r →
    (Job.run c job : Replay _).run (share i trace) = some (r, [])

variable {trace trace' : List (Nat × Event)} {i j : Nat} {e : Event} {es : List Event}

theorem share_append (i : Nat) (trace trace' : List (Nat × Event)) :
    share i (trace ++ trace') = share i trace ++ share i trace' :=
  List.filterMap_append

theorem mem_share : e ∈ share i trace ↔ (i, e) ∈ trace := by
  rw [share, List.mem_filterMap]
  constructor
  · rintro ⟨⟨j, e'⟩, hmem, h⟩
    split at h
    next hj =>
      cases h
      exact hj ▸ hmem
    next => cases h
  · intro h
    exact ⟨(i, e), h, if_pos rfl⟩

theorem share_map_self (i : Nat) (es : List Event) : share i (es.map fun e => (i, e)) = es := by
  rw [share, List.filterMap_map]
  have hsome : (fun e : Nat × Event => if e.1 = i then some e.2 else none) ∘ (fun e => (i, e)) = some :=
    funext fun e => if_pos rfl
  rw [hsome, List.filterMap_some]

theorem share_cons_self (i : Nat) (e : Event) (trace : List (Nat × Event)) :
    share i ((i, e) :: trace) = e :: share i trace :=
  List.filterMap_cons_some (if_pos rfl)

theorem share_eq_nil (h : ∀ e, (i, e) ∉ trace) : share i trace = [] :=
  List.eq_nil_iff_forall_not_mem.mpr fun e he => h e (mem_share.mp he)

theorem mem_writes_share {w : Path × Text} (h : w ∈ writes (trace.map Prod.snd)) :
    ∃ i, w ∈ writes (share i trace) := by
  obtain ⟨e, he, hw⟩ := List.mem_filterMap.mp h
  obtain ⟨⟨i, e⟩, hmem, rfl⟩ := List.mem_map.mp he
  exact ⟨i, List.mem_filterMap.mpr ⟨e, mem_share.mpr hmem, hw⟩⟩

theorem mem_writes_of_share {w : Path × Text} (h : w ∈ writes (share i trace)) :
    w ∈ writes (trace.map Prod.snd) := by
  obtain ⟨e, he, hw⟩ := List.mem_filterMap.mp h
  exact List.mem_filterMap.mpr ⟨e, List.mem_map.mpr ⟨(i, e), mem_share.mp he, rfl⟩, hw⟩

namespace Job

section
variable {settings : Settings} {toOutput : Bool} {sources : List Path} {jobs : List Job} {job : Job}

/-- The jobs of a plan are those of its sources, in order. -/
theorem plan_getElem? (h : plan settings none toOutput sources = some jobs) (i : Nat) :
    sources[i]?.map (fun source =>
      if toOutput then some ⟨source, .output⟩
      else (settings.outputPath source).map fun path => ⟨source, .file path⟩) =
      jobs[i]?.map some := by
  rw [← List.getElem?_map, ← List.getElem?_map, map_eq_of_mapM_eq_some h]

theorem exists_job_of_plan (h : plan settings none false sources = some jobs) {source : Path}
    (hs : sources[i]? = some source) :
    ∃ path, settings.outputPath source = some path ∧ jobs[i]? = some ⟨source, .file path⟩ := by
  have hi := plan_getElem? h i
  rw [hs] at hi
  obtain ⟨job, hjob, hi⟩ := Option.map_eq_some_iff.mp hi.symm
  obtain ⟨path, hpath, rfl⟩ := Option.map_eq_some_iff.mp hi.symm
  exact ⟨path, hpath, hjob⟩

theorem source_of_plan (h : plan settings none toOutput sources = some jobs)
    (hjob : jobs[i]? = some job) :
    sources[i]? = some job.source ∧ ∀ path, job.destination = .file path →
      toOutput = false ∧ settings.outputPath job.source = some path := by
  have hi := plan_getElem? h i
  rw [hjob] at hi
  obtain ⟨source, hs, hi⟩ := Option.map_eq_some_iff.mp hi
  cases toOutput with
  | true =>
    cases hi
    exact ⟨hs, fun path hpath => by cases hpath⟩
  | false =>
    obtain ⟨path, hpath, rfl⟩ := Option.map_eq_some_iff.mp hi
    refine ⟨hs, fun path' hpath' => ?_⟩
    cases hpath'
    exact ⟨rfl, hpath⟩

end

theorem exists_ok_of_outcome {results : List (Except JobError (Option Text))} {printed : List Text}
    {r : Except JobError (Option Text)} (h : outcome results = .ok printed)
    (hr : results[i]? = some r) : ∃ html?, r = .ok html? := by
  cases r with
  | ok html? => exact ⟨html?, rfl⟩
  | error e =>
    have he : e ∈ failures results :=
      List.mem_filterMap.mpr ⟨.error e, List.mem_of_getElem? hr, rfl⟩
    rw [outcome] at h
    split at h
    next hnone =>
      rw [hnone] at he
      cases he
    next => cases h

/-- The jobs one after the other, from a tree to the results and the tree at the end. -/
def runOn (c : Converter) (jobs : List Job) (t : FileTree) :
    List (Except JobError (Option Text)) × FileTree :=
  (runAll (m := StateM FileTree) c jobs).run t

variable {c : Converter} {jobs : List Job} {job : Job} {t u : FileTree}
  {results : List (Except JobError (Option Text))}

theorem runOn_append_singleton (c : Converter) (jobs : List Job) (job : Job) (t : FileTree) :
    runOn c (jobs ++ [job]) t =
      ((runOn c jobs t).1 ++ [((Job.run (m := StateM FileTree) c job).run (runOn c jobs t).2).1],
        ((Job.run (m := StateM FileTree) c job).run (runOn c jobs t).2).2) := by
  rw [runOn, runAll, List.mapM_append, List.mapM_cons, List.mapM_nil]
  rfl

end Job

namespace Batch

variable {c : Converter} {jobs : List Job} {job : Job} {t s u : FileTree}
  {results : List (Except JobError (Option Text))} {r : Except JobError (Option Text)}

/-- A batch goes on with one job more, when the others are through. -/
theorem append_singleton (h : Batch c jobs t trace results s) (hes : Answers s es u)
    (hrun : (Job.run c job : Replay _).run es = some (r, [])) :
    Batch c (jobs ++ [job]) t (trace ++ es.map fun e => (jobs.length, e)) (results ++ [r]) u := by
  have hnew : ∀ i, i < jobs.length → share i (es.map fun e => (jobs.length, e)) = [] := by
    intro i hi
    apply share_eq_nil
    intro e he
    obtain ⟨e', _, heq⟩ := List.mem_map.mp he
    cases heq
    exact absurd hi (Nat.lt_irrefl _)
  have hold : share jobs.length trace = [] :=
    share_eq_nil fun e he => absurd (h.lt _ e he) (Nat.lt_irrefl _)
  refine ⟨?_, ?_, ?_, ?_⟩
  · rw [List.map_append, List.map_map]
    have hsnd : es.map (Prod.snd ∘ fun e => (jobs.length, e)) = es := List.map_id es
    rw [hsnd]
    exact h.answers.append hes
  · simp [h.length_eq]
  · intro i e he
    rw [List.length_append, List.length_singleton]
    rcases List.mem_append.mp he with he | he
    · exact Nat.lt_succ_of_lt (h.lt i e he)
    · obtain ⟨e', _, heq⟩ := List.mem_map.mp he
      cases heq
      exact Nat.lt_succ_self _
  · intro i job' r' hjob hr
    rw [share_append]
    -- An old job has no new requests, and the new job has no others.
    by_cases hi : i < jobs.length
    · rw [List.getElem?_append_left hi] at hjob
      rw [List.getElem?_append_left (by rwa [h.length_eq])] at hr
      rw [hnew i hi, List.append_nil]
      exact h.run i job' r' hjob hr
    · obtain ⟨rfl, rfl⟩ : i = jobs.length ∧ job = job' := by
        rw [List.getElem?_append_right (Nat.le_of_not_lt hi)] at hjob
        rw [List.getElem?_singleton] at hjob
        split at hjob
        next hz => exact ⟨by omega, Option.some.inj hjob⟩
        next => cases hjob
      rw [← h.length_eq, List.getElem?_concat_length] at hr
      obtain rfl := Option.some.inj hr
      rw [hold, List.nil_append, share_map_self]
      exact hrun

/-- Jobs that run one after the other are a run of the batch. -/
theorem exists_runOn (c : Converter) (jobs : List Job) (t : FileTree) :
    ∃ trace, Batch c jobs t trace (Job.runOn c jobs t).1 (Job.runOn c jobs t).2 := by
  induction jobs using List.reverseRecOn with
  | nil =>
    refine ⟨[], .nil t, rfl, fun i e he => absurd he List.not_mem_nil, ?_⟩
    intro i job r hjob
    cases hjob
  | append_singleton jobs job ih =>
    obtain ⟨trace, h⟩ := ih
    obtain ⟨es, hes, hrun⟩ := (Job.follows_run c job).recorded (Job.runOn c jobs t).2
    have hrun' := hrun []
    rw [List.append_nil] at hrun'
    rw [Job.runOn_append_singleton]
    exact ⟨_, h.append_singleton hes hrun'⟩

section
variable (h : Batch c jobs t trace results u)
include h

theorem exists_result (hjob : jobs[i]? = some job) : ∃ r, results[i]? = some r := by
  have hi : i < results.length := h.length_eq ▸ (List.getElem?_eq_some_iff.mp hjob).1
  exact ⟨results[i], List.getElem?_eq_getElem hi⟩

theorem exists_job {i : Nat} {e : Event} (he : (i, e) ∈ trace) :
    ∃ job r, jobs[i]? = some job ∧ results[i]? = some r := by
  have hjob : jobs[i]? = some (jobs.get ⟨i, h.lt i e he⟩) := List.getElem?_eq_getElem (h.lt i e he)
  obtain ⟨r, hr⟩ := h.exists_result hjob
  exact ⟨_, r, hjob, hr⟩

theorem record (he : (i, e) ∈ trace) :
    ∃ job r, jobs[i]? = some job ∧ results[i]? = some r ∧ Job.Record c job (share i trace) r := by
  obtain ⟨job, r, hjob, hr⟩ := h.exists_job he
  exact ⟨job, r, hjob, hr, Job.run_record (h.run i job r hjob hr)⟩

/-- A job of the batch reads its source and the template which that declares. -/
theorem isInput_of_read {p : Path} {answer : Except FileError Content}
    (he : (i, ⟨.read p, answer⟩) ∈ trace) :
    ∃ job, jobs[i]? = some job ∧ IsInput c job.source (share i trace) p := by
  obtain ⟨job, r, hjob, _, hrecord⟩ := h.record he
  exact ⟨job, hjob, hrecord.isInput (mem_share.mpr he)⟩

/-- A job of the batch writes once at most: the HTML of its source, to its destination. -/
theorem writes_share {path : Path} {text : Text} (hw : (path, text) ∈ writes (share i trace)) :
    ∃ job, jobs[i]? = some job ∧ job.destination = .file path ∧
      Converts c job.source (share i trace) text ∧ writes (share i trace) = [(path, text)] := by
  obtain ⟨e, he, _⟩ := List.mem_filterMap.mp hw
  obtain ⟨job, r, hjob, _, hrecord⟩ := h.record (mem_share.mp he)
  rcases hrecord.writes_cases with ⟨hnone, _⟩ | ⟨q, html, hd, hc, hws, _⟩
  · rw [hnone] at hw
    cases hw
  · have hmem := hw
    rw [hws] at hmem
    cases List.mem_singleton.mp hmem
    exact ⟨job, hjob, hd, hc, hws⟩

/-- A job that still has a request to make has not written yet. -/
theorem writes_share_eq_nil {pre post : List (Nat × Event)} (htrace : trace = pre ++ (i, e) :: post) :
    writes (share i pre) = [] := by
  obtain ⟨job, r, _, _, hrecord⟩ := h.record (htrace ▸ List.mem_append_right pre List.mem_cons_self)
  have hlast := hrecord.writes_dropLast
  rw [htrace, share_append, share_cons_self, List.dropLast_append_of_ne_nil (List.cons_ne_nil _ _),
    writes_append] at hlast
  exact (List.append_eq_nil_iff.mp hlast).1

/-- What a batch writes is the HTML of its sources, each at its destination. -/
theorem converts_of_mem_writes {path : Path} {text : Text}
    (hw : (path, text) ∈ writes (trace.map Prod.snd)) :
    ∃ i job, jobs[i]? = some job ∧ job.destination = .file path ∧
      Converts c job.source (share i trace) text := by
  obtain ⟨i, hmem⟩ := mem_writes_share hw
  obtain ⟨job, hjob, hd, hc, _⟩ := h.writes_share hmem
  exact ⟨i, job, hjob, hd, hc⟩

/-- If a job with a file as destination succeeds, its HTML is written there. -/
theorem mem_writes_of_ok {source path : Path} {html? : Option Text}
    (hjob : jobs[i]? = some ⟨source, .file path⟩) (hr : results[i]? = some (.ok html?)) :
    ∃ html, Converts c source (share i trace) html ∧
      (path, html) ∈ writes (trace.map Prod.snd) := by
  rcases (Job.run_record (h.run i _ _ hjob hr)).writes_cases with
    ⟨_, herror⟩ | ⟨q, html, hd, hc, hws, _⟩
  · obtain ⟨e, he⟩ := herror path rfl
    cases he
  · cases hd
    exact ⟨html, hc, mem_writes_of_share (by rw [hws]; exact List.mem_singleton_self _)⟩

end

end Batch

end LineMarkup
