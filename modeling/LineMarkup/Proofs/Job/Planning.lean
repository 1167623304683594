import LineMarkup.Proofs.Command.Convert

/-!
Where planning comes to an end. An extension with a slash makes no file name, and no part of loading turns
such an extension away: the settings that hold it load, and the plan that needs it is what fails. Nothing
else keeps a plan from being made.
-/

namespace LineMarkup.Job

set_option autoImplicit false

open Settings (Prevails chosen)
open Layer (Holds)

/-- Files are to go where the settings say, and the extension that these give makes no file name. -/
structure Blocked (extension : Text) (output : Option Path) (toOutput : Bool)
    (sources : List Path) : Prop where
  files : toOutput = false
  unnamed : output = none
  needed : sources ≠ []
  slash : '/' ∈ extension

section
variable {settings : Settings} {output : Option Path} {toOutput : Bool} {sources : List Path}

theorem exists_plan_of_not_blocked (h : ¬ Blocked settings.outputExtension output toOutput sources) :
    ∃ jobs, plan settings output toOutput sources = some jobs ∧ jobs.map source = sources := by
  cases toOutput with
  | true => exact ⟨_, plan_output settings output sources, map_source_output sources⟩
  | false =>
    by_cases hsources : sources = []
    · subst hsources
      exact ⟨[], rfl, rfl⟩
    · exact exists_plan (fun hnone hslash => h ⟨rfl, hnone, hsources, hslash⟩) sources

/-- The first source that needs a file name ends the planning. -/
theorem Blocked.plan_eq_none (h : Blocked settings.outputExtension output toOutput sources) :
    plan settings output toOutput sources = none := by
  obtain ⟨rfl, rfl, hsources, hslash⟩ := h
  obtain ⟨first, rest, rfl⟩ := List.exists_cons_of_ne_nil hsources
  have hpath : settings.outputPath first = none := by
    rw [Settings.outputPath, if_pos (List.contains_iff_mem.mpr hslash)]
  rw [plan_eq_mapM, List.mapM_cons, planned?, hpath]
  rfl

theorem plan_eq_none_iff :
    plan settings output toOutput sources = none ↔
      Blocked settings.outputExtension output toOutput sources := by
  refine ⟨fun h => Classical.byContradiction fun hb => ?_, Blocked.plan_eq_none⟩
  obtain ⟨jobs, hjobs, _⟩ := exists_plan_of_not_blocked hb
  cases h.symm.trans hjobs

theorem exists_plan_iff :
    (∃ jobs, plan settings output toOutput sources = some jobs ∧ jobs.map source = sources) ↔
      ¬ Blocked settings.outputExtension output toOutput sources := by
  refine ⟨?_, exists_plan_of_not_blocked⟩
  rintro ⟨jobs, hjobs, _⟩ hb
  cases hb.plan_eq_none.symm.trans hjobs

end

/-- The command line has no say in the extension. -/
theorem mergeInto_outputExtension (i : Invocation) (s : Settings) :
    (i.mergeInto s).outputExtension = s.outputExtension := by
  rw [Invocation.mergeInto]
  split
  next => rfl
  next => rfl

/-- With settings that load, there is a job for each source, unless a source needs the extension and the
last of the defaults, files and overrides to set one sets it with a slash. Then there is no plan. -/
theorem exists_plan_of_load_iff (env : Environment) (t : FileTree) {files : List Path}
    {overrides : List Text} {loaded : Settings}
    (hload : t.answer (Settings.load env files overrides) = .ok loaded) :
    (∃ layers, List.Forall₂ (Holds t) (chosen env t files) layers ∧
      Prevails (.default :: (layers.map .file ++ overrides.map .override)) .outputExtension
        loaded.outputExtension) ∧
    ∀ (i : Invocation) (output : Option Path) (toOutput : Bool) (sources : List Path),
      ((∃ jobs, plan (i.mergeInto loaded) output toOutput sources = some jobs ∧
          jobs.map source = sources) ↔ ¬ Blocked loaded.outputExtension output toOutput sources) ∧
        (plan (i.mergeInto loaded) output toOutput sources = none ↔
          Blocked loaded.outputExtension output toOutput sources) := by
  constructor
  · rcases Settings.load_cases env t files overrides with
      ⟨layers, s, hlayers, _, hs, hr⟩ | ⟨e, _, he⟩ | ⟨e, _, _, he⟩
    · cases hload.symm.trans hs
      exact ⟨layers, hlayers, hr .outputExtension⟩
    · cases hload.symm.trans he
    · cases hload.symm.trans he
  · intro i output toOutput sources
    rw [← mergeInto_outputExtension i loaded]
    exact ⟨exists_plan_iff, plan_eq_none_iff⟩

/-- A settings file with a slash in its extension. -/
def slashed : FileTree :=
  ⟨[], [(["s.toml".toList], .file (.text "output_extension = \"a/b\"\n".toList))]⟩

theorem exists_plan_of_load_iff_slashed :
    let loaded : Settings := { Settings.default with outputExtension := "a/b".toList }
    let i : Invocation := ⟨false, ["s.toml".toList], [], .convert ["x.hb".toList] none none none true⟩
    slashed.answer (Settings.load ⟨[], none⟩ ["s.toml".toList] []) = .ok loaded ∧
      plan (i.mergeInto loaded) none false ["x.hb".toList] = none ∧
      ∃ jobs, plan (i.mergeInto loaded) none true ["x.hb".toList] = some jobs ∧
        jobs.map source = ["x.hb".toList] := by
  intro loaded i
  have hload : slashed.answer (Settings.load ⟨[], none⟩ ["s.toml".toList] []) = .ok loaded := by
    decide +kernel
  obtain ⟨_, hplan⟩ := exists_plan_of_load_iff ⟨[], none⟩ slashed hload
  refine ⟨hload, (hplan i none false _).2.mpr ⟨rfl, rfl, by decide, by decide⟩, ?_⟩
  exact (hplan i none true _).1.mpr fun hb => Bool.noConfusion hb.files

/-- A run that comes to no plan breaks off, and changes nothing. -/
theorem run_eq_abort (env : Environment) (now : Time.Moment) (t : FileTree) {args : List Text}
    {i : Invocation} {sources : List Path} {output outputDir : Option Path} {count : Option Nat}
    {toOutput : Bool} {loaded : Settings} (hparse : Invocation.parse args = .ok i)
    (hi : i.command = .convert sources output outputDir count toOutput)
    (hload : t.answer (Settings.load env i.settingsFiles i.overrides) = .ok loaded)
    (hplan : plan (i.mergeInto loaded) output toOutput sources = none) :
    (runArguments (m := StateM FileTree) env now args).run t = (.abort, t) := by
  obtain ⟨_, rfl, _, _⟩ := plan_eq_none_iff.mp hplan
  rw [Command.runArguments_eq_runConvert hparse hi, Command.run_runConvert, if_neg (by simp), hload]
  dsimp only
  rw [hplan]

/-- An override with a slash is taken, and the run that needs it breaks off. -/
theorem exists_plan_abort :
    ∃ (env : Environment) (now : Time.Moment) (t : FileTree) (args : List Text) (i : Invocation)
      (loaded : Settings),
      Invocation.parse args = .ok i ∧
      t.answer (Settings.load env i.settingsFiles i.overrides) = .ok loaded ∧
      i.command = .convert ["x.hb".toList] none none none false ∧
      plan (i.mergeInto loaded) none false ["x.hb".toList] = none ∧
      (runArguments (m := StateM FileTree) env now args).run t = (.abort, t) := by
  let i : Invocation :=
    ⟨false, [], ["output_extension=a/b".toList], .convert ["x.hb".toList] none none none false⟩
  let loaded : Settings := { Settings.default with outputExtension := "a/b".toList }
  have hparse : Invocation.parse
      ["convert".toList, "x.hb".toList, "--config".toList, "output_extension=a/b".toList] = .ok i := by
    decide +kernel
  have hload : FileTree.answer ⟨[], []⟩ (Settings.load ⟨[], none⟩ i.settingsFiles i.overrides) =
      .ok loaded := by
    decide +kernel
  have hplan : plan (i.mergeInto loaded) none false ["x.hb".toList] = none :=
    plan_eq_none_iff.mpr ⟨rfl, rfl, by decide, by decide⟩
  exact ⟨⟨[], none⟩, ⟨0, 0, 0⟩, ⟨[], []⟩, _, i, loaded, hparse, hload, rfl, hplan,
    run_eq_abort _ _ _ hparse rfl hload hplan⟩

end LineMarkup.Job
