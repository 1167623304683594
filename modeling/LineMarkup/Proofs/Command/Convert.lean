import LineMarkup.Command.Run
import LineMarkup.Proofs.Job.Isolation
import LineMarkup.Proofs.Settings.Precedence

/-!
The convert command. It stops before any job is run if one output is named for several sources, or if the
settings cannot be loaded; otherwise it runs a job for each source, whatever becomes of the others, and
its report is made from the results of all of them.
-/

namespace LineMarkup

set_option autoImplicit false

namespace Command

/-- The report on a batch. -/
def conclude (results : List (Except JobError (Option Text))) : Outcome :=
  match Job.outcome results with
  | .ok printed => { Outcome.success with output := printed.flatMap closeLine }
  | .error e => { Outcome.failure [e.message] with errors := (Job.failures results).map JobError.message }

section
variable {results : List (Except JobError (Option Text))}

theorem conclude_of_forall (h : ∀ r ∈ results, ∃ html?, r = .ok html?) :
    conclude results = { Outcome.success with output := (Job.printed results).flatMap closeLine } := by
  rw [conclude, Job.outcome, Job.failures_eq_nil_iff.mpr h]

theorem conclude_of_exists (h : ∃ r ∈ results, ∃ e, r = .error e) :
    conclude results =
      { Outcome.failure [(⟨results.countP fun r => !r.isOk, results.length⟩ : BatchError).message] with
        errors := (Job.failures results).map JobError.message } := by
  have hne : Job.failures results ≠ [] := by
    intro hnil
    obtain ⟨r, hr, e, rfl⟩ := h
    obtain ⟨html?, hok⟩ := Job.failures_eq_nil_iff.mp hnil _ hr
    cases hok
  have houtcome : Job.outcome results =
      .error ⟨results.countP fun r => !r.isOk, results.length⟩ := by
    rw [Job.outcome, ← Job.length_failures]
    split
    next hnil => exact absurd hnil hne
    next => rfl
  rw [conclude, houtcome]

theorem errors_conclude (results : List (Except JobError (Option Text))) :
    (conclude results).errors = (Job.failures results).map JobError.message := by
  by_cases h : ∀ r ∈ results, ∃ html?, r = .ok html?
  · rw [conclude_of_forall h, Job.failures_eq_nil_iff.mpr h]
    rfl
  · rw [conclude_of_exists]
    push Not at h
    obtain ⟨r, hr, hno⟩ := h
    cases r with
    | error e => exact ⟨_, hr, e, rfl⟩
    | ok html? => exact absurd rfl (hno html?)

end

/-- The settings that a command runs with are those that are loaded, with the command line in their place;
the jobs are run one after the other. -/
theorem run_runConvert (env : Environment) (now : Time.Moment) (i : Invocation) (sources : List Path)
    (output : Option Path) (toOutput : Bool) (t : FileTree) :
    (runConvert (m := StateM FileTree) env now i sources output toOutput).run t =
      if output.isSome && 1 < sources.length then
        (.failure ["--output can only be used with a single source document"], t)
      else match t.answer (Settings.load env i.settingsFiles i.overrides) with
        | .error e => (.failure ["Failed to load configuration", e.message], t)
        | .ok loaded =>
          match Job.plan (i.mergeInto loaded) output toOutput sources with
          | none => (.abort, t)
          | some jobs =>
            (conclude (Job.runOn ⟨now, (i.mergeInto loaded).lineSeparator⟩ jobs t).1,
              (Job.runOn ⟨now, (i.mergeInto loaded).lineSeparator⟩ jobs t).2) := by
  rw [runConvert]
  split
  next => rfl
  next =>
    rw [(Settings.readsOnly_load env i.settingsFiles i.overrides).run_bind]
    cases t.answer (Settings.load env i.settingsFiles i.overrides) with
    | error e => rfl
    | ok loaded =>
      dsimp only
      cases Job.plan (i.mergeInto loaded) output toOutput sources with
      | none => rfl
      | some jobs =>
        dsimp only
        rw [StateT.run_bind]
        show (match Job.outcome (Job.runOn _ jobs t).1 with
          | .ok printed => pure _
          | .error e => pure _ : StateM FileTree Outcome).run (Job.runOn _ jobs t).2 = _
        rw [conclude]
        split
        next => rfl
        next => rfl

theorem runArguments_eq_runConvert {m : Type → Type} [Monad m] [Files m] {env : Environment}
    {now : Time.Moment} {args : List Text} {i : Invocation} {sources : List Path}
    {output outputDir : Option Path} {count : Option Nat} {toOutput : Bool}
    (hparse : Invocation.parse args = .ok i)
    (hi : i.command = .convert sources output outputDir count toOutput) :
    (runArguments env now args : m Outcome) = runConvert env now i sources output toOutput := by
  rw [runArguments, hparse]
  show i.run env now = _
  rw [Invocation.run, hi]

theorem isSome_and_one_lt_iff {output : Option Path} {sources : List Path} :
    (output.isSome && decide (1 < sources.length)) = true ↔ output ≠ none ∧ 1 < sources.length := by
  cases output <;> simp

/-- With settings and a plan, a run is that of the jobs. -/
theorem run_of_plan (env : Environment) (now : Time.Moment) {t : FileTree} {args : List Text}
    {i : Invocation} {sources : List Path} {output outputDir : Option Path} {count : Option Nat}
    {toOutput : Bool} {loaded : Settings} {jobs : List Job} (hparse : Invocation.parse args = .ok i)
    (hi : i.command = .convert sources output outputDir count toOutput)
    (hno : ¬ (output ≠ none ∧ 1 < sources.length))
    (hload : t.answer (Settings.load env i.settingsFiles i.overrides) = .ok loaded)
    (hplan : Job.plan (i.mergeInto loaded) output toOutput sources = some jobs) :
    (runArguments (m := StateM FileTree) env now args).run t =
      (conclude (Job.runOn ⟨now, (i.mergeInto loaded).lineSeparator⟩ jobs t).1,
        (Job.runOn ⟨now, (i.mergeInto loaded).lineSeparator⟩ jobs t).2) := by
  rw [runArguments_eq_runConvert hparse hi, run_runConvert,
    if_neg fun h => hno (isSome_and_one_lt_iff.mp h), hload]
  dsimp only
  rw [hplan]

/-- What a batch changes and leaves alone, and what is reported of it, whichever of its jobs fail. -/
structure Isolates (c : Converter) (jobs : List Job) (t : FileTree) (trace : List (Nat × Event))
    (results : List (Except JobError (Option Text))) (u : FileTree) : Prop where
  /-- All that differs is the HTML of documents at their destinations, and new folders above these. -/
  changed : ∀ at_, u.get? at_ ≠ t.get? at_ → ∃ i source path html,
    jobs[i]? = some ⟨source, .file path⟩ ∧ Converts c source (share i trace) html ∧
      (u.locate path = .ok at_ ∧ u.get? at_ = some (.ofText html) ∨
        t.get? at_ = none ∧ u.get? at_ = some .folder ∧
          ∃ dir, dir.Above path ∧ u.locate dir = .ok at_)
  /-- Nothing that a job without HTML asks for changes a tree. -/
  unconverted : ∀ i cause, results[i]? = some (.error cause) →
    (∀ path e, cause ≠ .unwritable path e) → ∀ e ∈ share i trace, ∀ s s', e.Happens s s' → s' = s
  /-- Every job runs to its end, and its result is what it comes to by the answers that it gets. -/
  finished : results.length = jobs.length ∧ ∀ i job r, jobs[i]? = some job → results[i]? = some r →
    (Job.run c job : Replay _).run (share i trace) = some (r, [])
  errors : (conclude results).errors = results.filterMap fun
    | .error e => some e.message
    | .ok _ => none
  status : (conclude results).status = 0 ↔ ∀ r ∈ results, ∃ html?, r = .ok html?
  report : (∃ r ∈ results, ∃ e, r = .error e) → (conclude results).status = 1 ∧
    (conclude results).report =
      [(⟨results.countP fun r => !r.isOk, jobs.length⟩ : BatchError).message]

theorem isolates_of_batch {c : Converter} {jobs : List Job} {t u : FileTree}
    {trace : List (Nat × Event)} {results : List (Except JobError (Option Text))}
    (h : Batch c jobs t trace results u) : Isolates c jobs t trace results u := by
  refine ⟨fun at_ => h.changed, ?_, ⟨h.length_eq, h.run⟩, ?_, ?_, ?_⟩
  · intro i cause hr hcause e he s s' hhappens
    obtain ⟨p, answer, rfl⟩ := h.read_of_unconverted hr hcause (mem_share.mp he)
    exact hhappens.of_read
  · rw [errors_conclude, Job.failures, List.map_filterMap]
    congr 1
    funext r
    cases r with
    | error e => rfl
    | ok html? => rfl
  · constructor
    · intro hzero r hr
      cases r with
      | error e =>
        rw [conclude_of_exists ⟨_, hr, e, rfl⟩] at hzero
        cases hzero
      | ok html? => exact ⟨html?, rfl⟩
    · intro hall
      rw [conclude_of_forall hall]
      rfl
  · intro hexists
    rw [conclude_of_exists hexists, h.length_eq]
    exact ⟨rfl, rfl⟩

/-- A conversion that writes files either stops at once, with the tree as it is and the status 1, or runs
a batch. The jobs one after the other are one run of it, and in whatever order the requests of the jobs
come, their failures stay apart. -/
theorem convert_isolates_failures (env : Environment) (now : Time.Moment) (t : FileTree)
    {args : List Text} {i : Invocation} {sources : List Path} {output outputDir : Option Path}
    {count : Option Nat} (hparse : Invocation.parse args = .ok i)
    (hi : i.command = .convert sources output outputDir count false) :
    ((output ≠ none ∧ 1 < sources.length ∨
        ∃ e, t.answer (Settings.load env i.settingsFiles i.overrides) = .error e) →
      ∃ o, (runArguments (m := StateM FileTree) env now args).run t = (o, t) ∧ o.status = 1) ∧
    ∀ loaded, ¬ (output ≠ none ∧ 1 < sources.length) →
      t.answer (Settings.load env i.settingsFiles i.overrides) = .ok loaded →
      (output = none → '/' ∉ (i.mergeInto loaded).outputExtension) →
      ∃ jobs, Job.plan (i.mergeInto loaded) output false sources = some jobs ∧
        jobs.map Job.source = sources ∧
        (∃ trace results u,
          Batch ⟨now, (i.mergeInto loaded).lineSeparator⟩ jobs t trace results u ∧
          (runArguments (m := StateM FileTree) env now args).run t = (conclude results, u)) ∧
        ∀ trace results u, Batch ⟨now, (i.mergeInto loaded).lineSeparator⟩ jobs t trace results u →
          Isolates ⟨now, (i.mergeInto loaded).lineSeparator⟩ jobs t trace results u := by
  constructor
  · intro hstop
    rw [runArguments_eq_runConvert hparse hi, run_runConvert]
    split
    next => exact ⟨_, rfl, rfl⟩
    next hno =>
      rcases hstop with hboth | ⟨e, he⟩
      · exact absurd (isSome_and_one_lt_iff.mpr hboth) hno
      · rw [he]
        exact ⟨_, rfl, rfl⟩
  · intro loaded hno hload hslash
    obtain ⟨jobs, hplan, hsources⟩ := Job.exists_plan hslash sources
    obtain ⟨trace, hbatch⟩ :=
      Batch.exists_runOn ⟨now, (i.mergeInto loaded).lineSeparator⟩ jobs t
    exact ⟨jobs, hplan, hsources, ⟨trace, _, _, hbatch, run_of_plan env now hparse hi hno hload hplan⟩,
      fun _ _ _ => isolates_of_batch⟩

/-- One document that declares no template, and one that does. -/
def mixed : FileTree :=
  ⟨[], [(["bad.hb".toList], .ofText "no template\n".toList),
    (["good.hb".toList], .ofText "@template: t\nfine\n".toList),
    (["t".toList], .ofText "\x7b\x7bcontent\x7d\x7d".toList)]⟩

def mixedJobs : List Job :=
  [⟨"bad.hb".toList, .file "bad.html".toList⟩, ⟨"good.hb".toList, .file "good.html".toList⟩]

/-- A run in which the first document turns out to have no template while the second one is on its way. -/
def mixedTrace : List (Nat × Event) :=
  [(1, ⟨.read "good.hb".toList, .ok (.text "@template: t\nfine\n".toList)⟩),
    (0, ⟨.read "bad.hb".toList, .ok (.text "no template\n".toList)⟩),
    (1, ⟨.read "t".toList, .ok (.text "\x7b\x7bcontent\x7d\x7d".toList)⟩),
    (1, ⟨.write "good.html".toList "<p>\nfine\n</p>".toList, .ok ()⟩)]

def mixedResults : List (Except JobError (Option Text)) :=
  [.error (.convert "bad.hb".toList .missingTemplate), .ok none]

def mixedAfter : FileTree := mixed.put ["good.html".toList] (.ofText "<p>\nfine\n</p>".toList)

theorem runOn_mixed : Job.runOn ⟨⟨0, 0, 0⟩, ['\n']⟩ mixedJobs mixed = (mixedResults, mixedAfter) := rfl

theorem batch_mixed :
    Batch ⟨⟨0, 0, 0⟩, ['\n']⟩ mixedJobs mixed mixedTrace mixedResults mixedAfter := by
  refine ⟨.cons rfl (.cons rfl (.cons rfl (.cons rfl (.nil mixedAfter)))), rfl, ?_, ?_⟩
  · intro i e he
    have hlt : ∀ i ∈ mixedTrace.map Prod.fst, i < mixedJobs.length := by decide
    exact hlt i (List.mem_map_of_mem he)
  · intro i job r hjob hr
    rcases i with _ | _ | i
    · cases hjob
      cases hr
      exact rfl
    · cases hjob
      cases hr
      exact rfl
    · cases hjob

/-- One error is reported, of the document without a template; the other one has its HTML. -/
theorem convert_isolates_failures_mixed :
    let args : List Text := ["convert".toList, "bad.hb".toList, "good.hb".toList]
    let i : Invocation :=
      ⟨false, [], [], .convert ["bad.hb".toList, "good.hb".toList] none none none false⟩
    Invocation.parse args = .ok i ∧
      mixed.answer (Settings.load ⟨[], none⟩ i.settingsFiles i.overrides) = .ok Settings.default ∧
      Job.plan (i.mergeInto Settings.default) none false ["bad.hb".toList, "good.hb".toList] =
        some mixedJobs ∧
      (runArguments (m := StateM FileTree) ⟨[], none⟩ ⟨0, 0, 0⟩ args).run mixed =
        (⟨1, [], ["Failed to convert bad.hb: " ++ ConvertError.missingTemplate.message],
          ["1 of 2 documents failed to convert"]⟩, mixedAfter) ∧
      mixedAfter.get? ["good.html".toList] = some (.ofText "<p>\nfine\n</p>".toList) ∧
      mixedAfter.get? ["bad.html".toList] = none ∧
      Isolates ⟨⟨0, 0, 0⟩, ['\n']⟩ mixedJobs mixed mixedTrace mixedResults mixedAfter := by
  intro args i
  have hparse : Invocation.parse args = .ok i := by decide +kernel
  have hload : mixed.answer (Settings.load ⟨[], none⟩ [] []) = .ok Settings.default := by
    decide +kernel
  have hplan : Job.plan (i.mergeInto Settings.default) none false ["bad.hb".toList, "good.hb".toList] =
      some mixedJobs := by decide
  obtain ⟨_, hplan', _, _, hall⟩ :=
    (convert_isolates_failures ⟨[], none⟩ ⟨0, 0, 0⟩ mixed hparse rfl).2 Settings.default
      (by decide) hload (by decide)
  cases hplan'.symm.trans hplan
  refine ⟨hparse, hload, hplan, ?_, by decide, by decide, hall _ _ _ batch_mixed⟩
  have hconclude : conclude mixedResults =
      ⟨1, [], ["Failed to convert bad.hb: " ++ ConvertError.missingTemplate.message],
        ["1 of 2 documents failed to convert"]⟩ := by decide
  have hseparator : (i.mergeInto Settings.default).lineSeparator = ['\n'] := rfl
  rw [run_of_plan ⟨[], none⟩ ⟨0, 0, 0⟩ hparse rfl (by decide) hload hplan, hseparator, runOn_mixed,
    hconclude]

end Command

end LineMarkup
