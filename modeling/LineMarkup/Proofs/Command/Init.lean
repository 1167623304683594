import LineMarkup.Command.Run
import LineMarkup.Proofs.Files.Alike
import LineMarkup.Proofs.Job.Requests
import LineMarkup.Proofs.Settings.Precedence

/-!
The init command. It looks for something at its output, makes the folder of that if it is missing, and writes
settings in the format that it was asked for. They are read back in the format of the extension. And what
it looked for before may turn up once the folder is there, if the path goes on from that through dots.
-/

namespace LineMarkup

set_option autoImplicit false

namespace Starter

variable {t : FileTree} {p : Path} {written : SettingsFormat}

/-- The layer that the texts to start from hold. -/
def layer : Layer := { outputExtension := some "html".toList, lineSeparator := some ['\n'] }

theorem merge_layer : Settings.default.merge layer = Settings.default := rfl

/-- The texts to start from are no settings in any other format than their own. -/
theorem parse?_settingsText (format written : SettingsFormat) :
    Layer.parse? format (settingsText written) = if format = written then some layer else none := by
  cases format <;> cases written <;> decide +kernel

/-- What comes of reading a text to start from, by the extension of its path. -/
theorem answer_ofFile (h : t.read p = .ok (.text (settingsText written))) :
    t.answer (Settings.ofFile p) = match p.extension? with
      | none => .error (.noExtension p)
      | some extension => match SettingsFormat.ofName? extension with
        | none => .error (.unsupportedFile p)
        | some format =>
          if format = written then .ok Settings.default else .error (.invalidText format) := by
  rw [Settings.ofFile, Settings.mergeFiles, (Layer.readsOnly_ofFile p).answer_bind,
    Layer.answer_ofFile_of_text h]
  cases p.extension? with
  | none => rfl
  | some extension =>
    dsimp only
    cases SettingsFormat.ofName? extension with
    | none => rfl
    | some format =>
      dsimp only
      rw [parse?_settingsText]
      by_cases heq : format = written
      · rw [if_pos heq, if_pos heq]
        exact congrArg Except.ok merge_layer
      · rw [if_neg heq, if_neg heq]
        rfl

theorem answer_ofFile_eq_ok_iff (h : t.read p = .ok (.text (settingsText written))) :
    t.answer (Settings.ofFile p) = .ok Settings.default ↔
      p.extension?.bind SettingsFormat.ofName? = some written := by
  rw [answer_ofFile h]
  cases p.extension? with
  | none => simp
  | some extension =>
    rw [Option.bind_some]
    dsimp only
    cases SettingsFormat.ofName? extension with
    | none => simp
    | some format =>
      dsimp only
      split
      next heq => simp [heq]
      next hne => simp [hne]

theorem eq_default_of_ofFile {s : Settings} (h : t.read p = .ok (.text (settingsText written)))
    (hs : t.answer (Settings.ofFile p) = .ok s) : s = Settings.default := by
  rw [answer_ofFile h] at hs
  split at hs
  next => cases hs
  next =>
    split at hs
    next => cases hs
    next =>
      split at hs
      next => exact (Except.ok.inj hs).symm
      next => cases hs

end Starter

namespace Command

variable {t u : FileTree} {output : Path} {format : Text} {force : Bool} {o : Outcome}

theorem follows_makeParent (file : Path) :
    Follows (Job.OnFolder file) (makeParent file) (makeParent file) := by
  rw [makeParent, makeParent]
  split
  next => exact Follows.pure _
  next => exact Follows.pure _
  next folder _ hp =>
    have hkind : ∀ answer, Job.OnFolder file ⟨.kind? folder, answer⟩ :=
      fun _ => ⟨folder, .parent hp, Or.inr rfl⟩
    refine ((Follows.send (r := .kind? folder) hkind).bind fun _ => Follows.pure _).bind fun there => ?_
    refine (Follows.pure _).ite ((Job.follows_makeFolders hp).bind fun made => ?_)
    cases made with
    | error e => exact Follows.pure _
    | ok _ => exact Follows.pure _

theorem addsFolders_makeParent (file : Path) (t : FileTree) :
    t.AddsFolders ((makeParent (m := StateM FileTree) file).run t).2 := by
  obtain ⟨es, hanswers, hon⟩ := (follows_makeParent file).exists_answers t
  exact hanswers.addsFolders (writes_eq_nil fun e he _ _ => (hon e he).ne_write)

theorem run_makeParent_of_hasFolder (h : t.HasFolder output) :
    (makeParent (m := StateM FileTree) output).run t = (.ok (), t) := by
  rw [makeParent]
  split
  next => rfl
  next => rfl
  next folder hne hp =>
    have hkind : t.kind? folder = some .folder := (h folder hp).resolve_left hne
    rw [(Files.readsOnly_isThere folder).run_bind]
    rw [show t.answer (Files.isThere folder) = (t.kind? folder).isSome from rfl, hkind]
    rfl

theorem run_writeSettings (format : Text) (path : Path) (t : FileTree) :
    (Starter.writeSettings (m := StateM FileTree) format path).run t =
      match SettingsFormat.ofName? format with
      | none => (.error (.unsupportedFormat ⟨format⟩), t)
      | some starter => match t.write path (.text (Starter.settingsText starter)) with
        | .error e => (.error (.unwritable path e), t)
        | .ok u => (.ok (), u) := by
  have hsend : ∀ text, (Files.write (m := StateM FileTree) path text).run t =
      (FileTree.commit fun t => t.write path (.text text)).run t := fun _ => rfl
  rw [Starter.writeSettings, Starter.settingsFile]
  cases SettingsFormat.ofName? format with
  | none => rfl
  | some starter =>
    dsimp only
    rw [StateT.run_bind, hsend, FileTree.run_commit]
    cases t.write path (.text (Starter.settingsText starter)) with
    | error e => rfl
    | ok u => rfl

theorem run_runInit (output : Path) (format : Text) (force : Bool) (t : FileTree) :
    (runInit (m := StateM FileTree) output format force).run t =
      if (t.kind? output).isSome && !force then
        (.failure ["Configuration file already exists: " ++ String.ofList output ++
          ". Use --force to overwrite."], t)
      else match (makeParent (m := StateM FileTree) output).run t with
        | (.error (folder, e), s) =>
          (.failure ["Failed to create directory: " ++ String.ofList folder, e.message], s)
        | (.ok _, s) => match (Starter.writeSettings (m := StateM FileTree) format output).run s with
          | (.error e, u) =>
            (.failure ["Failed to generate configuration file: " ++ String.ofList output, e.message], u)
          | (.ok _, u) => (.success, u) := by
  have hthere : t.answer (Files.isThere output) = (t.kind? output).isSome := rfl
  rw [runInit, (Files.readsOnly_isThere output).run_bind, hthere]
  split
  next => rfl
  next =>
    rw [StateT.run_bind]
    generalize (makeParent (m := StateM FileTree) output).run t = made
    obtain ⟨made, s⟩ := made
    cases made with
    | error e => rfl
    | ok _ =>
      show (StateT.run (Starter.writeSettings format output >>= _) s : Id _) = _
      rw [StateT.run_bind]
      dsimp only
      generalize (Starter.writeSettings (m := StateM FileTree) format output).run s = wrote
      obtain ⟨wrote, u⟩ := wrote
      cases wrote with
      | error e => rfl
      | ok _ => rfl

/-- The ways in which an init ends. -/
inductive InitEnds (output : Path) (format : Text) (force : Bool) (t : FileTree) :
    Outcome × FileTree → Prop where
  | stopped {report : List String} {u : FileTree} : t.AddsFolders u →
      InitEnds output format force t (.failure report, u)
  | written {starter : SettingsFormat} {s u : FileTree} :
      ((t.kind? output).isSome = true → force = true) → t.AddsFolders s → (t.HasFolder output → s = t) →
      SettingsFormat.ofName? format = some starter →
      s.write output (.text (Starter.settingsText starter)) = .ok u →
      InitEnds output format force t (.success, u)

theorem initEnds_runInit (output : Path) (format : Text) (force : Bool) (t : FileTree) :
    InitEnds output format force t ((runInit (m := StateM FileTree) output format force).run t) := by
  rw [run_runInit]
  split
  next => exact .stopped (.refl t)
  next hgo =>
    have hforce : (t.kind? output).isSome = true → force = true := by
      intro hsome
      simpa [hsome] using hgo
    have hadds := addsFolders_makeParent output t
    have hsame : t.HasFolder output → ((makeParent (m := StateM FileTree) output).run t).2 = t :=
      fun h => congrArg Prod.snd (run_makeParent_of_hasFolder h)
    generalize (makeParent (m := StateM FileTree) output).run t = made at hadds hsame
    obtain ⟨made, s⟩ := made
    cases made with
    | error e => exact .stopped hadds
    | ok _ =>
      dsimp only
      rw [run_writeSettings]
      cases hformat : SettingsFormat.ofName? format with
      | none => exact .stopped hadds
      | some starter =>
        dsimp only
        cases hwrite : s.write output (.text (Starter.settingsText starter)) with
        | error e => exact .stopped hadds
        | ok u => exact .written hforce hadds hsame hformat hwrite

section
variable {env : Environment} {now : Time.Moment} {args : List Text} {i : Invocation}

theorem initEnds_runArguments (hparse : Invocation.parse args = .ok i)
    (hi : i.command = .init output format force)
    (hrun : (runArguments (m := StateM FileTree) env now args).run t = (o, u)) :
    InitEnds output format force t (o, u) := by
  have hinit : runArguments (m := StateM FileTree) env now args = runInit output format force := by
    rw [runArguments, hparse]
    show i.run env now = _
    rw [Invocation.run, hi]
  rw [← hrun, hinit]
  exact initEnds_runInit output format force t

/-- Once an init has succeeded, its output is read as the defaults if its extension is that of the format,
and is no settings file otherwise. -/
theorem init_reads_back_iff (hparse : Invocation.parse args = .ok i)
    (hi : i.command = .init output format force)
    (hrun : (runArguments (m := StateM FileTree) env now args).run t = (o, u)) (hzero : o.status = 0) :
    (u.answer (Settings.ofFile output) = .ok Settings.default ↔
        output.extension?.bind SettingsFormat.ofName? = SettingsFormat.ofName? format) ∧
      ∀ s, u.answer (Settings.ofFile output) = .ok s → s = Settings.default := by
  cases initEnds_runArguments hparse hi hrun with
  | stopped => cases hzero
  | written _ _ _ hformat hwrite =>
    have hread := FileTree.read_of_write hwrite
    rw [hformat]
    exact ⟨Starter.answer_ofFile_eq_ok_iff hread, fun s => Starter.eq_default_of_ofFile hread⟩

theorem init_reads_back_iff_bare : ∃ i u,
    Invocation.parse ["init".toList] = .ok i ∧
      i.command = .init "hbhd.toml".toList "toml".toList false ∧
      (runArguments (m := StateM FileTree) ⟨[], none⟩ ⟨0, 0, 0⟩ ["init".toList]).run ⟨[], []⟩ =
        (.success, u) ∧
      u.answer (Settings.ofFile "hbhd.toml".toList) = .ok Settings.default := by
  have hparse : Invocation.parse ["init".toList] =
      .ok ⟨false, [], [], .init "hbhd.toml".toList "toml".toList false⟩ := by
    decide +kernel
  have ho : ((runArguments (m := StateM FileTree) ⟨[], none⟩ ⟨0, 0, 0⟩ ["init".toList]).run
      ⟨[], []⟩).1 = .success := by
    decide +kernel
  exact ⟨_, _, hparse, rfl, Prod.ext ho rfl,
    (init_reads_back_iff hparse rfl (Prod.ext ho rfl) rfl).1.mpr (by decide +kernel)⟩

/-- The default output is named for the default format, whichever format is asked for. -/
theorem exists_init_unreadable : ∃ i u,
    Invocation.parse ["init".toList, "-F".toList, "json".toList] = .ok i ∧
      i.command = .init "hbhd.toml".toList "json".toList false ∧
      (runArguments (m := StateM FileTree) ⟨[], none⟩ ⟨0, 0, 0⟩
        ["init".toList, "-F".toList, "json".toList]).run ⟨[], []⟩ = (.success, u) ∧
      u.answer (Settings.ofFile "hbhd.toml".toList) = .error (.invalidText .toml) := by
  have hparse : Invocation.parse ["init".toList, "-F".toList, "json".toList] =
      .ok ⟨false, [], [], .init "hbhd.toml".toList "json".toList false⟩ := by
    decide +kernel
  have ho : ((runArguments (m := StateM FileTree) ⟨[], none⟩ ⟨0, 0, 0⟩
      ["init".toList, "-F".toList, "json".toList]).run ⟨[], []⟩).1 = .success := by
    decide +kernel
  exact ⟨_, _, hparse, rfl, Prod.ext ho rfl, by decide +kernel⟩

/-- Without being forced, an init changes a file only if it succeeds and the text of its output leads to
that file, and never if the folder of its output is there from the start. -/
theorem init_keeps_files_iff (hparse : Invocation.parse args = .ok i)
    (hi : i.command = .init output format false)
    (hrun : (runArguments (m := StateM FileTree) env now args).run t = (o, u)) :
    (t.KeepsFiles u ↔ ¬ (o.status = 0 ∧ ∃ starter content,
        SettingsFormat.ofName? format = some starter ∧
          t.get? (t.resolve output) = some (.file content) ∧
          content ≠ .text (Starter.settingsText starter))) ∧
      (t.HasFolder output → t.KeepsFiles u) := by
  cases initEnds_runArguments hparse hi hrun with
  | stopped hadds =>
    have hkeeps : t.KeepsFiles u := fun _ _ => hadds.file_iff.mpr
    refine ⟨iff_of_true hkeeps ?_, fun _ => hkeeps⟩
    rintro ⟨hzero, _⟩
    cases hzero
  | @written starter s u hforce hadds hsame hformat hwrite =>
    have hu : ∀ at_, u.get? at_ = if at_ = t.resolve output then
        some (.file (.text (Starter.settingsText starter))) else s.get? at_ := by
      intro at_
      rw [FileTree.get?_write hwrite, hadds.grows.resolve]
    refine ⟨⟨?_, ?_⟩, ?_⟩
    · rintro hkeeps ⟨_, starter', content, hformat', hfile, hne⟩
      cases hformat.symm.trans hformat'
      have hget := hkeeps _ content hfile
      rw [hu, if_pos rfl] at hget
      cases hget
      exact hne rfl
    · intro hno at_ content hfile
      rw [hu]
      split
      next heq =>
        have htext : content = .text (Starter.settingsText starter) := by
          by_contra hne
          exact hno ⟨rfl, starter, content, hformat, heq ▸ hfile, hne⟩
        rw [htext]
      next => exact hadds.file_iff.mpr hfile
    · intro hfolder at_ content hfile
      rw [hu, if_neg, hsame hfolder]
      · exact hfile
      · -- Otherwise it would have been found before, since no folder was missing.
        rintro rfl
        rw [hsame hfolder] at hwrite
        cases hforce (FileTree.kind?_of_write hwrite (by rw [hfile]; rfl))

end

/-- A folder with a settings file. -/
def configured : FileTree := ⟨[], [(["hbhd.toml".toList], .ofText "jobs = 2\n".toList)]⟩

theorem init_keeps_files_iff_newFolder : ∃ i u,
    Invocation.parse ["init".toList, "-o".toList, "new/hbhd.toml".toList] = .ok i ∧
      i.command = .init "new/hbhd.toml".toList "toml".toList false ∧
      (runArguments (m := StateM FileTree) ⟨[], none⟩ ⟨0, 0, 0⟩
        ["init".toList, "-o".toList, "new/hbhd.toml".toList]).run configured = (.success, u) ∧
      configured.KeepsFiles u := by
  have hparse : Invocation.parse ["init".toList, "-o".toList, "new/hbhd.toml".toList] =
      .ok ⟨false, [], [], .init "new/hbhd.toml".toList "toml".toList false⟩ := by
    decide +kernel
  have ho : ((runArguments (m := StateM FileTree) ⟨[], none⟩ ⟨0, 0, 0⟩
      ["init".toList, "-o".toList, "new/hbhd.toml".toList]).run configured).1 = .success := by
    decide +kernel
  have hnone : configured.get? (configured.resolve "new/hbhd.toml".toList) = none := by
    decide +kernel
  refine ⟨_, _, hparse, rfl, Prod.ext ho rfl,
    (init_keeps_files_iff hparse rfl (Prod.ext ho rfl)).1.mpr ?_⟩
  rintro ⟨_, _, _, _, hfile, _⟩
  cases hnone.symm.trans hfile

/-- The path leads to the file as soon as the folder that it goes through has been made. -/
theorem exists_init_overwrites : ∃ i u,
    Invocation.parse ["init".toList, "-o".toList, "new/../hbhd.toml".toList] = .ok i ∧
      i.command = .init "new/../hbhd.toml".toList "toml".toList false ∧
      (runArguments (m := StateM FileTree) ⟨[], none⟩ ⟨0, 0, 0⟩
        ["init".toList, "-o".toList, "new/../hbhd.toml".toList]).run configured = (.success, u) ∧
      ¬ configured.KeepsFiles u := by
  have hparse : Invocation.parse ["init".toList, "-o".toList, "new/../hbhd.toml".toList] =
      .ok ⟨false, [], [], .init "new/../hbhd.toml".toList "toml".toList false⟩ := by
    decide +kernel
  have ho : ((runArguments (m := StateM FileTree) ⟨[], none⟩ ⟨0, 0, 0⟩
      ["init".toList, "-o".toList, "new/../hbhd.toml".toList]).run configured).1 = .success := by
    decide +kernel
  refine ⟨_, _, hparse, rfl, Prod.ext ho rfl, fun hkeeps => ?_⟩
  have hget := hkeeps ["hbhd.toml".toList] (.text "jobs = 2\n".toList) rfl
  revert hget
  decide +kernel

end Command

end LineMarkup
