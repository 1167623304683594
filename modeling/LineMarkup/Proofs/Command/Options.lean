import LineMarkup.Proofs.Arguments.Acceptance
import LineMarkup.Proofs.Command.Given
import LineMarkup.Proofs.Settings.Override

/-!
Lines of convert. What such a line comes to is decided by the values that it gives for each option: how each
is spelled, and where it stands among the others, makes no difference.
-/

namespace LineMarkup.Invocation

set_option autoImplicit false

open Arguments (Level Reading Scan Spelled Spelling UsageError)

/-- All that a line of convert can say. -/
structure ConvertOptions where
  sources : List Path := []
  settingsFiles : List Path := []
  overrides : List Text := []
  output : Option Path := none
  outputDir : Option Path := none
  jobs : Option Nat := none
  verbose : Bool := false
  toOutput : Bool := false

namespace ConvertOptions

def invocation (o : ConvertOptions) : Invocation where
  verbose := o.verbose
  settingsFiles := o.settingsFiles
  overrides := o.overrides
  command := .convert o.sources o.output o.outputDir o.jobs o.toOutput

/-- No path is empty, and nothing is named for documents that go to the output. -/
structure Proper (o : ConvertOptions) : Prop where
  sources : ∀ p ∈ o.sources, p ≠ []
  settingsFiles : ∀ p ∈ o.settingsFiles, p ≠ []
  output : ∀ p ∈ o.output, p ≠ []
  outputDir : ∀ p ∈ o.outputDir, p ≠ []
  apart : o.toOutput = true → o.output = none ∧ o.outputDir = none

/-- A number that may be left out, and the values that are given for it. -/
inductive GivesCount : Option Nat → List Text → Prop where
  | missing : GivesCount none []
  | written {n : Nat} {t : Text} : Count.Writes t n → GivesCount (some n) [t]

/-- What the options say is given, each thing once, in whatever order; what one option has several of stays
in order. -/
structure Lists (o : ConvertOptions) (given : List (Key × Text)) : Prop where
  sources : valuesIn .source given = o.sources
  settingsFiles : valuesIn .settingsFile given = o.settingsFiles
  overrides : valuesIn .override given = o.overrides
  output : valuesIn .output given = o.output.toList
  outputDir : valuesIn .outputDir given = o.outputDir.toList
  jobs : GivesCount o.jobs (valuesIn .jobs given)
  verbose : valuesIn .verbose given = if o.verbose then [[]] else []
  toOutput : valuesIn .toOutput given = if o.toOutput then [[]] else []

end ConvertOptions

variable {o : ConvertOptions} {args : List Text} {given : List (Key × Text)} {key : Key}
  {check : Arguments.Check} {v : Text}

theorem mem_valuesIn : v ∈ valuesIn key given ↔ (key, v) ∈ given := by
  simp [valuesIn]

theorem length_valuesIn : (valuesIn key given).length = given.countP fun g => g.1 = key := by
  rw [valuesIn, List.length_map, List.countP_eq_length_filter]

theorem checks_convertLevel (h : convertLevel.Checks key check) :
    (key, check) ∈ [(.settingsFile, aPath), (.override, anyText), (.output, aPath), (.outputDir, aPath),
      (.jobs, aCount), (.source, aPath)] := by
  rcases h with ⟨w, hw, repeats, huse⟩ | hoperands
  · simp only [convertLevel, common, flag, value, values, List.cons_append, List.nil_append,
      List.mem_cons, List.not_mem_nil, or_false] at hw
    rcases hw with rfl | rfl | rfl | rfl | rfl | rfl | rfl | rfl <;> cases huse <;> simp
  · cases hoperands
    simp

theorem single_convertLevel (h : convertLevel.Single key) :
    key ∈ [Key.verbose, .output, .outputDir, .jobs, .toOutput] := by
  obtain ⟨w, hw, huse⟩ := h
  simp only [convertLevel, common, flag, value, values, List.cons_append, List.nil_append,
    List.mem_cons, List.not_mem_nil, or_false] at hw
  rcases hw with rfl | rfl | rfl | rfl | rfl | rfl | rfl | rfl <;>
    rcases huse with huse | ⟨_, huse⟩ <;> cases huse <;> simp

theorem aPath_eq_none (h : v ≠ []) : aPath v = none := by
  cases v with
  | nil => exact absurd rfl h
  | cons c v => rfl

namespace ConvertOptions

theorem GivesCount.length_le {n? : Option Nat} {ts : List Text} (h : GivesCount n? ts) : ts.length ≤ 1 := by
  cases h with
  | missing => exact Nat.zero_le 1
  | written => exact Nat.le_refl 1

theorem GivesCount.aCount_eq_none {n? : Option Nat} {ts : List Text} (h : GivesCount n? ts) (hv : v ∈ ts) :
    aCount v = none := by
  cases h with
  | missing => cases hv
  | written hwrites =>
    obtain rfl := List.mem_singleton.mp hv
    rw [aCount, Count.read_eq_ok_iff.mpr hwrites]

theorem GivesCount.read {n? : Option Nat} {ts : List Text} (h : GivesCount n? ts) :
    (ts.head?.bind fun t => (Count.read t).toOption) = n? := by
  cases h with
  | missing => rfl
  | @written n t hwrites =>
    show (Count.read t).toOption = _
    rw [Count.read_eq_ok_iff.mpr hwrites]
    rfl

theorem Lists.admits (h : o.Lists given) (hproper : o.Proper) : convertLevel.Admits given := by
  constructor
  · intro key check hcheck v hv
    have hvalue := mem_valuesIn.mpr hv
    have hcase := checks_convertLevel hcheck
    simp only [List.mem_cons, Prod.mk.injEq, List.not_mem_nil, or_false] at hcase
    rcases hcase with ⟨rfl, rfl⟩ | ⟨rfl, rfl⟩ | ⟨rfl, rfl⟩ | ⟨rfl, rfl⟩ | ⟨rfl, rfl⟩ | ⟨rfl, rfl⟩
    · exact aPath_eq_none (hproper.settingsFiles v (h.settingsFiles ▸ hvalue))
    · rfl
    · exact aPath_eq_none (hproper.output v (by simpa [h.output] using hvalue))
    · exact aPath_eq_none (hproper.outputDir v (by simpa [h.outputDir] using hvalue))
    · exact h.jobs.aCount_eq_none hvalue
    · exact aPath_eq_none (hproper.sources v (h.sources ▸ hvalue))
  · intro key hkey
    rw [← length_valuesIn]
    have hcase := single_convertLevel hkey
    simp only [List.mem_cons, List.not_mem_nil, or_false] at hcase
    rcases hcase with rfl | rfl | rfl | rfl | rfl
    · rw [h.verbose]
      split <;> simp
    · rw [h.output]
      cases o.output <;> simp
    · rw [h.outputDir]
      cases o.outputDir <;> simp
    · exact h.jobs.length_le
    · rw [h.toOutput]
      split <;> simp

section
variable {s : Scan Key} (h : o.Lists s.given)
include h

theorem Lists.isGiven_verbose : s.isGiven .verbose = o.verbose := by
  rw [Bool.eq_iff_iff, isGiven_iff, h.verbose]
  simp

theorem Lists.isGiven_toOutput : s.isGiven .toOutput = o.toOutput := by
  rw [Bool.eq_iff_iff, isGiven_iff, h.toOutput]
  simp

theorem Lists.convertCommand_eq (hproper : o.Proper) : convertCommand s =
    if o.sources = [] then .error .missingArgument
    else .ok (.convert o.sources o.output o.outputDir o.jobs o.toOutput) := by
  have houtput : (s.valuesOf .output).head? = o.output := by
    rw [show s.valuesOf .output = _ from h.output]
    exact Option.head?_toList
  have hdir : (s.valuesOf .outputDir).head? = o.outputDir := by
    rw [show s.valuesOf .outputDir = _ from h.outputDir]
    exact Option.head?_toList
  have hjobs : ((s.valuesOf .jobs).head?.bind fun t => (Count.read t).toOption) = o.jobs := h.jobs.read
  have hapart : ¬ (o.toOutput && (o.output.isSome || o.outputDir.isSome)) = true := by
    intro hboth
    obtain ⟨htrue, hsome⟩ := (Bool.and_eq_true _ _).mp hboth
    obtain ⟨hnone, hnodir⟩ := hproper.apart htrue
    simp [hnone, hnodir] at hsome
  simp only [convertCommand, houtput, hdir, hjobs, h.isGiven_toOutput, show s.valuesOf .source = _ from h.sources,
    if_neg hapart, List.isEmpty_iff]

end

end ConvertOptions

/-- With nothing in front of the subcommand, all that is given is given after it. -/
theorem latest_start (s : Scan Key) (key : Key) : latest .start s key = valuesIn key s.given := by
  rw [latest]
  split
  next => rfl
  next hgiven =>
    have hnil : valuesIn key s.given = [] := by
      by_contra hne
      exact hgiven (isGiven_iff.mpr hne)
    rw [hnil]
    rfl

theorem parse_convertName {s : Scan Key} (h : convertLevel.read args = .ok s) :
    parse (convertName :: args) = (convertCommand s).bind fun command => .ok {
      verbose := s.isGiven .verbose
      settingsFiles := valuesIn .settingsFile s.given
      overrides := valuesIn .override s.given
      command := command } := by
  have hline : Scan.start.line topLevel (convertName :: args) = .ok (.start, some (convertName, args)) := rfl
  have hsub : subcommand convertName args = (convertCommand s).map fun command => (s, command) := by
    rw [subcommand, if_pos rfl]
    show (convertLevel.read args).bind _ = _
    rw [h]
    rfl
  rw [parse, hline]
  show (subcommand convertName args).bind _ = _
  rw [hsub]
  cases convertCommand s with
  | error e => rfl
  | ok command =>
    show Except.ok _ = Except.ok _
    rw [← latest_start, ← latest_start]
    rfl

/-- A line of convert that gives some options, however they are spelled and whatever order they stand in, is
parsed to just these; only without a source it is refused. -/
theorem parse_convert (hreading : Reading convertLevel args given) (hlists : o.Lists given)
    (hproper : o.Proper) : parse (convertName :: args) =
      if o.sources = [] then .error .missingArgument else .ok o.invocation := by
  have hlevel : level? convertName = some convertLevel := rfl
  obtain ⟨apart, _, _⟩ := apart_of_level? hlevel
  obtain ⟨s, hread, rfl⟩ := Level.exists_read apart hreading (hlists.admits hproper)
  rw [parse_convertName hread, hlists.convertCommand_eq hproper]
  split
  next => rfl
  next =>
    rw [hlists.isGiven_verbose, hlists.settingsFiles, hlists.overrides]
    rfl

/-- Options of every kind. -/
def assorted : ConvertOptions where
  sources := ["x.hb".toList, "y.hb".toList]
  settingsFiles := ["a.toml".toList, "b.toml".toList]
  overrides := ["jobs=2".toList]
  outputDir := some "out".toList
  jobs := some 7
  verbose := true

/-- The same in words, spelled in several ways. -/
def assortedLine : List Text :=
  ["-vca.toml".toList, "x.hb".toList, "--config".toList, "jobs=2".toList, "-O".toList, "out".toList,
    "y.hb".toList, "-j=07".toList, "--config-file=b.toml".toList]

/-- What the words give, in their order. -/
def assortedGiven : List (Key × Text) :=
  [(.verbose, []), (.settingsFile, "a.toml".toList), (.source, "x.hb".toList),
    (.override, "jobs=2".toList), (.outputDir, "out".toList), (.source, "y.hb".toList),
    (.jobs, "07".toList), (.settingsFile, "b.toml".toList)]

theorem parse_convert_assorted : ∃ given, Reading convertLevel assortedLine given ∧ assorted.Lists given ∧
    assorted.Proper ∧ parse (convertName :: assortedLine) = .ok assorted.invocation := by
  have hspelled : Spelled convertLevel assortedLine assortedGiven :=
    .cons (.letters (by decide) (.flag rfl rfl (.attached rfl rfl (by decide) (by decide))))
      (.cons (.operand rfl (Or.inr (by decide)) (by decide))
      (.cons (.next (by decide) (by decide) rfl rfl (Or.inr (by decide)))
      (.cons (.letters (by decide) (.next rfl rfl (Or.inr (by decide))))
      (.cons (.operand rfl (Or.inr (by decide)) (by decide))
      (.cons (.letters (by decide) (.equals rfl rfl))
      (.cons (@Spelling.equals _ _ "config-file".toList _ _ _ _ _ (by decide) rfl rfl) .nil))))))
  have hwrites : Count.Writes "07".toList 7 := Count.read_eq_ok_iff.mp (by decide +kernel)
  have hlists : assorted.Lists assortedGiven :=
    ⟨rfl, rfl, rfl, rfl, rfl, .written hwrites, rfl, rfl⟩
  have hproper : assorted.Proper := ⟨by decide, by decide, by decide, by decide, by decide⟩
  exact ⟨_, .plain hspelled, hlists, hproper, parse_convert (.plain hspelled) hlists hproper⟩

/-- A line without a source is no line, whatever else it says. -/
theorem exists_sourceless : ∃ o : ConvertOptions, Reading convertLevel [] [] ∧ o.Lists [] ∧ o.Proper ∧
    parse ["convert".toList] = .error .missingArgument ∧ parse ["convert".toList] ≠ .ok o.invocation :=
  ⟨{}, .plain .nil, ⟨rfl, rfl, rfl, rfl, rfl, .missing, rfl, rfl⟩,
    ⟨nofun, nofun, nofun, nofun, nofun⟩, rfl, nofun⟩

end LineMarkup.Invocation
