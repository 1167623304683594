import LineMarkup.Proofs.Command.Convert
import LineMarkup.Proofs.Command.Given
import LineMarkup.Proofs.Job.Beside
import LineMarkup.Proofs.Job.Order
import Mathlib.Data.List.Forall2

/-!
Conversions whose documents go to the output. They change no file, so each document comes out as it does
alone, and what is printed and reported follows from the sources in their order, however many jobs are
under way at a time.
-/

namespace LineMarkup

set_option autoImplicit false

variable {c : Converter} {t u : FileTree} {es : List Event} {sources : List Path} {jobs : List Job}
  {trace : List (Nat × Event)} {results : List (Except JobError (Option Text))}

theorem Answers.eq_of_reads (h : Answers t es u) (hreads : ∀ e ∈ es, ∃ p answer, e = ⟨.read p, answer⟩) :
    u = t := by
  induction h with
  | nil => rfl
  | cons he _ ih =>
    obtain ⟨⟨p, answer, rfl⟩, hrest⟩ := List.forall_mem_cons.mp hreads
    rw [ih hrest, he.of_read]

namespace Job

theorem readsOnly_convertFile (c : Converter) (source : Path) : ReadsOnly (convertFile c source) := by
  refine (readsOnly_readSource source).bind fun answer => ?_
  cases answer with
  | error e => exact .pure _
  | ok lines =>
    refine (readsOnly_convert_beside c lines source).bind fun answer => ?_
    cases answer with
    | error e => exact .pure _
    | ok html => exact .pure _

/-- A job for the output hands back the HTML of its source. -/
theorem answer_run_output (c : Converter) (t : FileTree) (source : Path) :
    t.answer (run c ⟨source, .output⟩) = (t.answer (convertFile c source)).map some := by
  rw [run, (readsOnly_convertFile c source).answer_bind]
  cases t.answer (convertFile c source) with
  | error e => rfl
  | ok html => rfl

/-- Jobs that write no file do not get in one another's way. -/
theorem independent_of_output (c : Converter) (t : FileTree)
    (h : ∀ job ∈ jobs, job.destination = .output) : Independent c t jobs := by
  have hno : ∀ job ∈ jobs, ∀ path, job.destination ≠ .file path := by
    intro job hjob path hd
    cases (h job hjob).symm.trans hd
  refine ⟨fun job hjob path hd => absurd hd (hno job hjob path), ?_⟩
  refine List.pairwise_of_forall_mem_list fun a ha b hb => ⟨?_, ?_⟩
  · exact fun path hd => absurd hd (hno a ha path)
  · exact fun path hd => absurd hd (hno b hb path)

end Job

theorem Batch.eq_of_output (h : Batch c jobs t trace results u)
    (hout : ∀ job ∈ jobs, job.destination = .output) : u = t := by
  refine h.answers.eq_of_reads fun e he => ?_
  obtain ⟨⟨i, e⟩, hmem, rfl⟩ := List.mem_map.mp he
  obtain ⟨job, r, hjob, _, hrecord⟩ := h.record hmem
  rcases hrecord.cases_of_mem (mem_share.mpr hmem) with ⟨p, answer, he, _⟩ | ⟨path, html, hd, _⟩
  · exact ⟨p, answer, he⟩
  · cases (hout job (List.mem_of_getElem? hjob)).symm.trans hd

/-- In a batch for the output each source comes out as it does alone, and nothing is changed. -/
theorem Batch.eq_of_all_output
    (h : Batch c (sources.map fun source => ⟨source, .output⟩) t trace results u) :
    u = t ∧ results = sources.map fun source => (t.answer (Job.convertFile c source)).map some := by
  have hout : ∀ job ∈ sources.map fun source => (⟨source, .output⟩ : Job), job.destination = .output := by
    simp
  refine ⟨h.eq_of_output hout, ?_⟩
  rw [h.results_eq (Job.independent_of_output _ t hout), List.map_map]
  exact congrArg (sources.map ·) (funext fun source => Job.answer_run_output _ t source)

namespace Command

/-- HTML as it is printed: with a newline after it, unless it ends in one. -/
inductive Printed : Text → Text → Prop where
  | ended (text : Text) : Printed (text ++ ['\n']) (text ++ ['\n'])
  | closed {html : Text} : (∀ text, html ≠ text ++ ['\n']) → Printed html (html ++ ['\n'])

/-- What printing the documents of some sources comes to, by how each of them converts on a tree. -/
structure Prints (c : Converter) (t : FileTree) (sources : List Path) (o : Outcome) : Prop where
  /-- If all convert, all that is printed is their HTML in order. -/
  all : ∀ htmls, List.Forall₂ (fun source html => t.answer (Job.convertFile c source) = .ok html)
      sources htmls →
    o.status = 0 ∧ ∃ texts, List.Forall₂ Printed htmls texts ∧ o.output = texts.flatten
  /-- If one fails, nothing is printed. -/
  failed : (∃ source ∈ sources, ∃ e, t.answer (Job.convertFile c source) = .error e) →
    o.status = 1 ∧ o.output = []
  /-- The errors are those of the sources that fail, in order. -/
  errors : o.errors = sources.filterMap fun source =>
    match t.answer (Job.convertFile c source) with
    | .error e => some e.message
    | .ok _ => none

theorem printed_iff {html text : Text} : Printed html text ↔ text = closeLine html := by
  constructor
  · rintro (text | hno)
    · rw [closeLine, if_pos (List.getLast?_concat ..)]
    · rw [closeLine, if_neg fun h => (List.getLast?_eq_some_iff.mp h).elim hno]
  · rintro rfl
    rw [closeLine]
    split
    next h =>
      obtain ⟨text, rfl⟩ := List.getLast?_eq_some_iff.mp h
      exact .ended text
    next h => exact .closed fun text he => h (List.getLast?_eq_some_iff.mpr ⟨text, he⟩)

theorem prints_conclude (c : Converter) (t : FileTree) (sources : List Path) :
    Prints c t sources
      (conclude (sources.map fun source => (t.answer (Job.convertFile c source)).map some)) := by
  constructor
  · intro htmls h
    have hresults : (sources.map fun source => (t.answer (Job.convertFile c source)).map some) =
        htmls.map fun html => .ok (some html) := by
      induction h with
      | nil => rfl
      | cons hsource _ ih => rw [List.map_cons, List.map_cons, hsource, ih]; rfl
    have hprinted : Job.printed (htmls.map fun html => .ok (some html)) = htmls := by
      rw [Job.printed, List.filterMap_map]
      exact List.filterMap_some
    rw [hresults, conclude_of_forall (by simp), hprinted]
    refine ⟨rfl, htmls.map closeLine, ?_, List.flatMap_def⟩
    rw [List.forall₂_map_right_iff]
    exact List.forall₂_same.mpr fun html _ => printed_iff.mpr rfl
  · rintro ⟨source, hsource, e, he⟩
    rw [conclude_of_exists ⟨.error e, List.mem_map.mpr ⟨source, hsource, by rw [he]; rfl⟩, e, rfl⟩]
    exact ⟨rfl, rfl⟩
  · rw [errors_conclude, Job.failures, List.map_filterMap, List.filterMap_map]
    congr 1
    funext source
    rw [Function.comp]
    cases t.answer (Job.convertFile c source) with
    | error e => rfl
    | ok html => rfl

/-- A conversion to the output is reported from what each source converts to by itself. -/
theorem run_convert_output (env : Environment) (now : Time.Moment) (t : FileTree) {args : List Text}
    {i : Invocation} {output outputDir : Option Path} {count : Option Nat} {loaded : Settings}
    (hparse : Invocation.parse args = .ok i)
    (hi : i.command = .convert sources output outputDir count true)
    (hload : t.answer (Settings.load env i.settingsFiles i.overrides) = .ok loaded) :
    (runArguments (m := StateM FileTree) env now args).run t = (conclude (sources.map fun source =>
      (t.answer (Job.convertFile ⟨now, loaded.lineSeparator⟩ source)).map some), t) := by
  obtain ⟨rfl, _⟩ := Invocation.output_eq_none hparse hi
  have hseparator : (i.mergeInto loaded).lineSeparator = loaded.lineSeparator := by
    rw [Invocation.mergeInto, hi]
  obtain ⟨trace, h⟩ := Batch.exists_runOn ⟨now, loaded.lineSeparator⟩
    (sources.map fun source => ⟨source, .output⟩) t
  obtain ⟨htree, hresults⟩ := h.eq_of_all_output
  rw [run_of_plan env now hparse hi (by simp) hload (Job.plan_output _ none sources), hseparator,
    hresults, htree]

/-- A conversion whose documents go to the output changes nothing. What it prints and reports follows from
what each source converts to by itself, and is the same in whatever order the requests of the jobs come
and whatever the settings are, the number of jobs at a time among them, but for the line separator. -/
theorem convert_prints (env : Environment) (now : Time.Moment) (t : FileTree) {args : List Text}
    {i : Invocation} {sources : List Path} {output outputDir : Option Path} {count : Option Nat}
    {loaded : Settings} (hparse : Invocation.parse args = .ok i)
    (hi : i.command = .convert sources output outputDir count true)
    (hload : t.answer (Settings.load env i.settingsFiles i.overrides) = .ok loaded) :
    ∃ jobs o, Job.plan (i.mergeInto loaded) output true sources = some jobs ∧
      jobs.map Job.source = sources ∧
      (runArguments (m := StateM FileTree) env now args).run t = (o, t) ∧
      Prints ⟨now, loaded.lineSeparator⟩ t sources o ∧
      (∀ trace results u, Batch ⟨now, loaded.lineSeparator⟩ jobs t trace results u →
        u = t ∧ conclude results = o) ∧
      ∀ args' i' output' outputDir' count' loaded', Invocation.parse args' = .ok i' →
        i'.command = .convert sources output' outputDir' count' true →
        t.answer (Settings.load env i'.settingsFiles i'.overrides) = .ok loaded' →
        loaded'.lineSeparator = loaded.lineSeparator →
        (runArguments (m := StateM FileTree) env now args').run t = (o, t) := by
  refine ⟨_, _, Job.plan_output _ output sources, Job.map_source_output sources,
    run_convert_output env now t hparse hi hload, prints_conclude _ t sources, ?_, ?_⟩
  · intro trace results u h
    obtain ⟨htree, hresults⟩ := h.eq_of_all_output
    exact ⟨htree, by rw [hresults]⟩
  · intro args' i' output' outputDir' count' loaded' hparse' hi' hload' hsame
    rw [run_convert_output env now t hparse' hi' hload', hsame]

theorem convert_prints_twice :
    ∃ o, (runArguments (m := StateM FileTree) ⟨[], none⟩ ⟨0, 0, 0⟩
        ["convert".toList, "--stdout".toList, "good.hb".toList, "good.hb".toList]).run mixed = (o, mixed) ∧
      o.status = 0 ∧ o.output = "<p>\nfine\n</p>\n<p>\nfine\n</p>\n".toList := by
  have hparse : Invocation.parse
      ["convert".toList, "--stdout".toList, "good.hb".toList, "good.hb".toList] =
      .ok ⟨false, [], [], .convert ["good.hb".toList, "good.hb".toList] none none none true⟩ := by
    decide +kernel
  have hload : mixed.answer (Settings.load ⟨[], none⟩ [] []) = .ok Settings.default := by
    decide +kernel
  have hhtml : mixed.answer (Job.convertFile ⟨⟨0, 0, 0⟩, Settings.default.lineSeparator⟩ "good.hb".toList) =
      .ok "<p>\nfine\n</p>".toList := by
    decide +kernel
  obtain ⟨_, o, _, _, hrun, hprints, _⟩ :=
    convert_prints ⟨[], none⟩ ⟨0, 0, 0⟩ mixed hparse rfl hload
  obtain ⟨hstatus, texts, htexts, houtput⟩ := hprints.all _ (.cons hhtml (.cons hhtml .nil))
  refine ⟨o, hrun, hstatus, houtput.trans ?_⟩
  simp only [printed_iff, List.forall₂_cons_left_iff, List.forall₂_nil_left_iff] at htexts
  obtain ⟨_, _, rfl, ⟨_, _, rfl, rfl, rfl⟩, rfl⟩ := htexts
  decide

end Command

end LineMarkup
