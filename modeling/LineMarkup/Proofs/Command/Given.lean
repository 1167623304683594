import LineMarkup.Command
import LineMarkup.Proofs.Arguments.Spelling

/-!
What a command line gives. It is read in one way as what stands in front of the subcommand and what stands
after it. Settings files and overrides that are named on both sides do not add up: those after the
subcommand stand for all.
-/

namespace LineMarkup.Invocation

set_option autoImplicit false

open Arguments (Level Reading Scan Spelled Spelling UsageError)

/-- The switches and operands of a subcommand that runs something. -/
def level? (name : Text) : Option (Level Key) :=
  if name = convertName then some convertLevel
  else if name = initName then some initLevel
  else if name = exportName then some exportLevel
  else none

/-- The switches in front of the subcommand, and the switches and operands after it. -/
inductive Gives : List Text → List (Key × Text) → List (Key × Text) → Prop where
  | intro {before rest : List Text} {name : Text} {level : Level Key} {top sub : List (Key × Text)} :
      Spelled topLevel before top → level? name = some level → Reading level rest sub →
      Gives (before ++ name :: rest) top sub

/-- The values that are given for a key, in order. -/
def valuesIn (key : Key) (given : List (Key × Text)) : List Text :=
  (given.filter fun g => g.1 = key).map Prod.snd

variable {args rest : List Text} {name : Text} {level : Level Key} {top sub : List (Key × Text)}
  {key : Key} {i : Invocation}

theorem topLevel_apart : topLevel.Apart :=
  ⟨fun _ _ o ho => (by cases ho), by decide⟩

theorem apart_of_level? (h : level? name = some level) :
    level.Apart ∧ level.subcommands = [] ∧ name ∈ topLevel.subcommands := by
  unfold level? at h
  split at h
  next hname =>
    cases h
    refine ⟨⟨?_, by decide⟩, rfl, by rw [hname]; decide⟩
    rintro w hw o ho repeats check huse
    cases ho
    have hkeys : ∀ w ∈ convertLevel.switches, ∀ repeats check,
        w.use ≠ .value .source repeats check := by
      simp [convertLevel, common, flag, value, values]
    exact hkeys w hw repeats check huse
  next =>
    split at h
    next hname =>
      cases h
      exact ⟨⟨fun _ _ o ho => (by cases ho), by decide⟩, rfl, by rw [hname]; decide⟩
    next =>
      split at h
      next hname =>
        cases h
        exact ⟨⟨fun _ _ o ho => (by cases ho), by decide⟩, rfl, by rw [hname]; decide⟩
      next => cases h

theorem exists_read_of_eq_ok {level : Level Key} {make : Scan Key → Except UsageError Command} {s : Scan Key}
    {command : Command}
    (h : ((level.read args).bind fun s => (make s).map fun c => (s, c)) = .ok (s, command)) :
    level.read args = .ok s ∧ make s = .ok command := by
  obtain ⟨s', hs', h⟩ := exists_of_bind_eq_ok h
  cases hmake : make s' with
  | error e =>
    rw [hmake] at h
    cases h
  | ok c =>
    rw [hmake] at h
    cases h
    exact ⟨hs', hmake⟩

theorem subcommand_eq_ok {s : Scan Key} {command : Command} (h : subcommand name args = .ok (s, command)) :
    ∃ level, level? name = some level ∧ level.read args = .ok s ∧
      (convertCommand s = .ok command ∨ initCommand s = .ok command ∨ exportCommand s = .ok command) := by
  unfold subcommand at h
  unfold level?
  split at h
  next hname =>
    obtain ⟨hread, hmake⟩ := exists_read_of_eq_ok h
    exact ⟨_, if_pos hname, hread, Or.inl hmake⟩
  next hconvert =>
    rw [if_neg hconvert]
    split at h
    next hname =>
      obtain ⟨hread, hmake⟩ := exists_read_of_eq_ok h
      exact ⟨_, if_pos hname, hread, Or.inr (Or.inl hmake)⟩
    next hinit =>
      rw [if_neg hinit]
      split at h
      next hname =>
        obtain ⟨hread, hmake⟩ := exists_read_of_eq_ok h
        exact ⟨_, if_pos hname, hread, Or.inr (Or.inr hmake)⟩
      next => cases h

/-- The command of an accepted line is made of what stands after the subcommand. -/
theorem exists_makes_of_parse (h : parse args = .ok i) : ∃ s : Scan Key,
    convertCommand s = .ok i.command ∨ initCommand s = .ok i.command ∨
      exportCommand s = .ok i.command := by
  obtain ⟨⟨before, out⟩, hline, h⟩ := exists_of_bind_eq_ok h
  match out with
  | none =>
    obtain ⟨_, _, h⟩ := exists_of_bind_eq_ok h
    split at h <;> cases h
  | some (name, rest) =>
    obtain ⟨⟨after, command⟩, hsub, h⟩ := exists_of_bind_eq_ok h
    obtain ⟨settled, _, h⟩ := exists_of_bind_eq_ok h
    obtain ⟨level, _, _, hmakes⟩ := subcommand_eq_ok hsub
    obtain rfl := Except.ok.inj h
    exact ⟨after, hmakes⟩

/-- Documents go to the output only if no file and no folder is named for them. -/
theorem output_eq_none {sources : List Path} {output outputDir : Option Path} {count : Option Nat}
    (h : parse args = .ok i) (hi : i.command = .convert sources output outputDir count true) :
    output = none ∧ outputDir = none := by
  obtain ⟨s, hs | hs | hs⟩ := exists_makes_of_parse h
  · rw [hi] at hs
    unfold convertCommand at hs
    dsimp only at hs
    split at hs
    next => cases hs
    next hconflict =>
      split at hs
      next => cases hs
      next =>
        simp only [Except.ok.injEq, Command.convert.injEq] at hs
        obtain ⟨-, houtput, hdir, -, hgiven⟩ := hs
        rw [houtput, hdir, hgiven] at hconflict
        simpa using hconflict
  · rw [hi] at hs
    cases hs
  · rw [hi] at hs
    cases hs

/-- An accepted line is read in one way, and its settings files and overrides come from what that gives. -/
theorem parse_eq_ok (h : parse args = .ok i) : ∃ before after : Scan Key,
    (∀ top sub, Gives args top sub ↔ top = before.given ∧ sub = after.given) ∧
      i.settingsFiles = latest before after .settingsFile ∧
      i.overrides = latest before after .override := by
  obtain ⟨⟨before, out⟩, hline, h⟩ := exists_of_bind_eq_ok h
  match out with
  | none =>
    obtain ⟨_, _, h⟩ := exists_of_bind_eq_ok h
    split at h <;> cases h
  | some (name, rest) =>
    obtain ⟨⟨after, command⟩, hsub, h⟩ := exists_of_bind_eq_ok h
    obtain ⟨settled, hsettle, h⟩ := exists_of_bind_eq_ok h
    obtain ⟨level, hlevel, hread, _⟩ := subcommand_eq_ok hsub
    obtain ⟨hapart, hnone, _⟩ := apart_of_level? hlevel
    obtain rfl := Except.ok.inj h
    refine ⟨settled, after, fun top sub => ⟨?_, ?_⟩, rfl, rfl⟩
    · rintro ⟨hspelled, hlevel', hreading⟩
      obtain ⟨hout, htop⟩ := Scan.given_of_reaches topLevel_apart Scan.start_ready
        (.subcommand hspelled (apart_of_level? hlevel').2.2) hline hsettle
      cases hout
      cases hlevel.symm.trans hlevel'
      exact ⟨htop.symm, (Level.reading_iff hapart hnone hread).mp hreading⟩
    · rintro ⟨rfl, rfl⟩
      obtain ⟨given, hreaches, hgiven⟩ :=
        Scan.reaches_of_line topLevel_apart Scan.start_ready hline hsettle
      cases hreaches with
      | subcommand hspelled _ =>
        exact .intro (hgiven ▸ hspelled) hlevel ((Level.reading_iff hapart hnone hread).mpr rfl)

theorem isGiven_iff {s : Scan Key} : s.isGiven key = true ↔ valuesIn key s.given ≠ [] := by
  simp [Scan.isGiven, valuesIn]

theorem valuesIn_append : valuesIn key (top ++ sub) = valuesIn key top ++ valuesIn key sub := by
  simp [valuesIn]

theorem latest_eq_append_iff {before after : Scan Key} :
    latest before after key = valuesIn key (before.given ++ after.given) ↔
      valuesIn key before.given = [] ∨ valuesIn key after.given = [] := by
  rw [valuesIn_append, latest]
  split
  next hgiven =>
    have hne := isGiven_iff.mp hgiven
    rw [show after.valuesOf key = valuesIn key after.given from rfl, List.self_eq_append_left]
    exact (or_iff_left hne).symm
  next hgiven =>
    have hnil : valuesIn key after.given = [] := by
      by_contra hne
      exact hgiven (isGiven_iff.mpr hne)
    rw [hnil, List.append_nil]
    exact iff_of_true rfl (Or.inr rfl)

/-- An accepted line is read in one way. The settings files are all that it names, in order, unless it
names some on both sides of the subcommand, and so with the overrides. -/
theorem parse_keeps_all_iff (h : parse args = .ok i) : ∃ top sub,
    (∀ top' sub', Gives args top' sub' ↔ top' = top ∧ sub' = sub) ∧
      (i.settingsFiles = valuesIn .settingsFile (top ++ sub) ↔
        valuesIn .settingsFile top = [] ∨ valuesIn .settingsFile sub = []) ∧
      (i.overrides = valuesIn .override (top ++ sub) ↔
        valuesIn .override top = [] ∨ valuesIn .override sub = []) := by
  obtain ⟨before, after, hgives, hfiles, hoverrides⟩ := parse_eq_ok h
  refine ⟨before.given, after.given, hgives, ?_, ?_⟩
  · rw [hfiles]
    exact latest_eq_append_iff
  · rw [hoverrides]
    exact latest_eq_append_iff

/-- With the settings file in front of the subcommand and the override after it, both are kept. -/
theorem parse_keeps_all_iff_apart : ∃ i top sub,
    parse ["-c".toList, "a.toml".toList, "convert".toList, "x.hb".toList, "--config=jobs=2".toList]
        = .ok i ∧
      Gives ["-c".toList, "a.toml".toList, "convert".toList, "x.hb".toList, "--config=jobs=2".toList]
        top sub ∧
      i.settingsFiles = valuesIn .settingsFile (top ++ sub) ∧
      i.overrides = valuesIn .override (top ++ sub) := by
  have htop : Spelled topLevel ["-c".toList, "a.toml".toList] [(.settingsFile, "a.toml".toList)] :=
    .cons (.letters (by decide) (.next rfl rfl (Or.inr (by decide)))) .nil
  have hsub : Spelled convertLevel ["x.hb".toList, "--config=jobs=2".toList]
      [(.source, "x.hb".toList), (.override, "jobs=2".toList)] :=
    .cons (.operand rfl (Or.inr (by decide)) (by decide))
      (.cons (@Spelling.equals _ _ "config".toList _ _ _ _ _ (by decide) rfl rfl) .nil)
  have hgives : Gives
      ["-c".toList, "a.toml".toList, "convert".toList, "x.hb".toList, "--config=jobs=2".toList] _ _ :=
    .intro htop rfl (.plain hsub)
  obtain ⟨i, hparse⟩ : ∃ i, parse
      ["-c".toList, "a.toml".toList, "convert".toList, "x.hb".toList, "--config=jobs=2".toList] = .ok i :=
    ⟨_, rfl⟩
  obtain ⟨top, sub, hunique, hfiles, hoverrides⟩ := parse_keeps_all_iff hparse
  obtain ⟨rfl, rfl⟩ := (hunique _ _).mp hgives
  exact ⟨i, _, _, hparse, hgives, hfiles.mpr (Or.inr rfl), hoverrides.mpr (Or.inl rfl)⟩

/-- Of two settings files, one on each side of the subcommand, the first is dropped. -/
theorem exists_settingsFile_dropped : ∃ i top sub,
    parse ["-c".toList, "a.toml".toList, "convert".toList, "x.hb".toList, "-c".toList, "b.toml".toList]
        = .ok i ∧
      Gives ["-c".toList, "a.toml".toList, "convert".toList, "x.hb".toList, "-c".toList, "b.toml".toList]
        top sub ∧
      i.settingsFiles = ["b.toml".toList] ∧
      valuesIn .settingsFile (top ++ sub) = ["a.toml".toList, "b.toml".toList] := by
  have htop : Spelled topLevel ["-c".toList, "a.toml".toList] [(.settingsFile, "a.toml".toList)] :=
    .cons (.letters (by decide) (.next rfl rfl (Or.inr (by decide)))) .nil
  have hsub : Spelled convertLevel ["x.hb".toList, "-c".toList, "b.toml".toList]
      [(.source, "x.hb".toList), (.settingsFile, "b.toml".toList)] :=
    .cons (.operand rfl (Or.inr (by decide)) (by decide))
      (.cons (.letters (by decide) (.next rfl rfl (Or.inr (by decide)))) .nil)
  exact ⟨_, _, _, rfl, .intro htop rfl (.plain hsub), rfl, rfl⟩

end LineMarkup.Invocation
