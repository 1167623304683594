import LineMarkup.Command
import LineMarkup.Proofs.Files.Reading
import LineMarkup.Proofs.Settings.Override
import LineMarkup.Settings.Files
import Mathlib.Data.List.Forall2

/-!
Who has the last word on a setting. The defaults, the settings files, the overrides and the command line
come one after the other; each sets some keys and leaves the rest alone, so that every key ends up as the
last of them that sets it says. Loading stops at the first file or override that is no good.
-/

namespace LineMarkup

set_option autoImplicit false

/-- What is wrong with the first element that is no good. -/
inductive FirstFault {α ε : Type} (good : α → Prop) (bad : α → ε → Prop) : List α → ε → Prop where
  | head {x : α} {xs : List α} {e : ε} : bad x e → FirstFault good bad (x :: xs) e
  | cons {x : α} {xs : List α} {e : ε} : good x → FirstFault good bad xs e →
      FirstFault good bad (x :: xs) e

section
variable {α ε : Type} {good : α → Prop} {bad : α → ε → Prop} {xs : List α} {e e' : ε}
variable (hno : ∀ x e, bad x e → ¬ good x)
include hno

theorem FirstFault.not_forall (h : FirstFault good bad xs e) : ¬ ∀ x ∈ xs, good x := by
  induction h with
  | head hbad => exact fun hall => hno _ _ hbad (hall _ (by simp))
  | cons _ _ ih => exact fun hall => ih fun x hx => hall x (by simp [hx])

theorem FirstFault.unique (h : FirstFault good bad xs e) (h' : FirstFault good bad xs e')
    (hone : ∀ x e e', bad x e → bad x e' → e = e') : e = e' := by
  induction h with
  | head hbad =>
    cases h' with
    | head hbad' => exact hone _ _ _ hbad hbad'
    | cons hgood' _ => exact absurd hgood' (hno _ _ hbad)
  | cons hgood _ ih =>
    cases h' with
    | head hbad' => exact absurd hgood (hno _ _ hbad')
    | cons _ h' => exact ih h'

end

namespace Settings

/-- What sets keys. -/
inductive Setter where
  | default
  | file (layer : Layer)
  | override (text : Text)
  | flags (outputDir : Option Path) (jobs : Option Nat)

/-- A setter sets a key to a value; every other key it leaves out. -/
inductive Setter.Sets : Setter → (k : Key) → k.Value → Prop where
  | default (k : Key) : Sets .default k (Settings.default.get k)
  | outputDir {layer : Layer} {dir : Path} : layer.outputDir = some dir →
      Sets (.file layer) .outputDir (some dir)
  | outputExtension {layer : Layer} {extension : Text} : layer.outputExtension = some extension →
      Sets (.file layer) .outputExtension extension
  | lineSeparator {layer : Layer} {separator : Text} : layer.lineSeparator = some separator →
      Sets (.file layer) .lineSeparator separator
  | jobs {layer : Layer} {n : Nat} : layer.jobs = some n → Sets (.file layer) .jobs (some n)
  | override {text : Text} {k : Key} {v : k.Value} : Overrides text k v → Sets (.override text) k v
  | outputDirFlag {dir : Path} {jobs : Option Nat} :
      Sets (.flags (some dir) jobs) .outputDir (some dir)
  | jobsFlag {dir : Option Path} {n : Nat} : Sets (.flags dir (some n)) .jobs (some n)

/-- The value that a key gets from the last setter that sets it. -/
def Prevails (xs : List Setter) (k : Key) (v : k.Value) : Prop :=
  ∃ lower x higher, xs = lower ++ x :: higher ∧ x.Sets k v ∧ ∀ y ∈ higher, ∀ w, ¬ y.Sets k w

/-- `s'` is `s` but for the keys that a setter sets. -/
structure Obeys (s : Settings) (x : Setter) (s' : Settings) : Prop where
  sets : ∀ k v, x.Sets k v → s'.get k = v
  keeps : ∀ k, (∀ v, ¬ x.Sets k v) → s'.get k = s.get k

/-- Every key has the value of the last setter that sets it. -/
def Ruled (xs : List Setter) (s : Settings) : Prop := ∀ k, Prevails xs k (s.get k)

variable {s s' : Settings} {x : Setter} {xs : List Setter} {t : FileTree}

theorem ruled_default : Ruled [.default] default :=
  fun k => ⟨[], .default, [], rfl, .default k, by simp⟩

theorem Ruled.append_singleton (h : Ruled xs s) (ho : Obeys s x s') : Ruled (xs ++ [x]) s' := by
  intro k
  by_cases hx : ∃ v, x.Sets k v
  · obtain ⟨v, hv⟩ := hx
    rw [ho.sets k v hv]
    exact ⟨xs, x, [], rfl, hv, by simp⟩
  · have hnone : ∀ v, ¬ x.Sets k v := fun v hv => hx ⟨v, hv⟩
    rw [ho.keeps k hnone]
    obtain ⟨lower, y, higher, rfl, hy, hrest⟩ := h k
    refine ⟨lower, y, higher ++ [x], by simp, hy, ?_⟩
    intro z hz
    rcases List.mem_append.mp hz with hz | hz
    · exact hrest z hz
    · rw [List.mem_singleton.mp hz]
      exact hnone

theorem merge_obeys (s : Settings) (layer : Layer) : Obeys s (.file layer) (s.merge layer) := by
  constructor
  · intro k v hv
    cases hv with
    | outputDir h => exact congrArg (·.or s.outputDir) h
    | outputExtension h => exact congrArg (·.getD s.outputExtension) h
    | lineSeparator h => exact congrArg (·.getD s.lineSeparator) h
    | jobs h => exact congrArg (·.or s.jobs) h
  · intro k hk
    cases k with
    | outputDir =>
      have h := Option.eq_none_iff_forall_ne_some.mpr fun dir h => hk (some dir) (.outputDir h)
      exact congrArg (·.or s.outputDir) h
    | outputExtension =>
      have h := Option.eq_none_iff_forall_ne_some.mpr fun e h => hk e (.outputExtension h)
      exact congrArg (·.getD s.outputExtension) h
    | lineSeparator =>
      have h := Option.eq_none_iff_forall_ne_some.mpr fun e h => hk e (.lineSeparator h)
      exact congrArg (·.getD s.lineSeparator) h
    | jobs =>
      have h := Option.eq_none_iff_forall_ne_some.mpr fun n h => hk (some n) (.jobs h)
      exact congrArg (·.or s.jobs) h

theorem overrideText_obeys {o : Text} (h : s.overrideText o = .ok s') : Obeys s (.override o) s' := by
  obtain ⟨k, v, hv, rfl⟩ := overrideText_eq_ok_iff.mp h
  constructor
  · intro j w hw
    cases hw with
    | override hw =>
      obtain rfl := hv.key_unique hw
      obtain rfl := hv.value_unique hw
      exact get_set_self s k v
  · intro j hj
    refine get_set_of_ne s ?_ v
    rintro rfl
    exact hj v (.override hv)

def IsOverride (o : Text) : Prop := ∃ k v, Overrides o k v

theorem Refused.not_isOverride {o : Text} {e : OverrideError} (h : Refused o e) : ¬ IsOverride o := by
  rintro ⟨k, v, hv⟩
  have hok := overrideText_eq_ok_iff (s := default).mpr ⟨k, v, hv, rfl⟩
  cases (overrideText_eq_error_iff.mpr h).symm.trans hok

theorem Refused.unique {o : Text} {e e' : OverrideError} (h : Refused o e) (h' : Refused o e') :
    e = e' := by
  have herror := (overrideText_eq_error_iff (s := default)).mpr h
  exact Except.error.inj (herror.symm.trans (overrideText_eq_error_iff.mpr h'))

theorem applyOverrides_cases (os : List Text) (h : Ruled xs s) :
    ((∀ o ∈ os, IsOverride o) ∧
      ∃ s', s.applyOverrides os = .ok s' ∧ Ruled (xs ++ os.map .override) s') ∨
    ∃ e, FirstFault IsOverride Refused os e ∧ s.applyOverrides os = .error (.badOverride e) := by
  induction os generalizing s xs with
  | nil =>
    refine Or.inl ⟨by simp, s, rfl, ?_⟩
    rwa [List.map_nil, List.append_nil]
  | cons o os ih =>
    cases ho : s.overrideText o with
    | error e =>
      refine Or.inr ⟨e, .head (overrideText_eq_error_iff.mp ho), ?_⟩
      simp only [applyOverrides, overrideAll, ho]
    | ok next =>
      obtain ⟨k, v, hv, _⟩ := overrideText_eq_ok_iff.mp ho
      have hrest : s.applyOverrides (o :: os) = next.applyOverrides os := by
        simp only [applyOverrides, overrideAll, ho]
      rw [hrest]
      rcases ih (h.append_singleton (overrideText_obeys ho)) with ⟨hall, s', hs', hr⟩ | ⟨e, he, herror⟩
      · refine Or.inl ⟨List.forall_mem_cons.mpr ⟨⟨k, v, hv⟩, hall⟩, s', hs', ?_⟩
        rwa [List.append_assoc] at hr
      · exact Or.inr ⟨e, .cons ⟨k, v, hv⟩ he, herror⟩

end Settings

namespace Layer

theorem readsOnly_ofFile (p : Path) : ReadsOnly (ofFile p) := by
  refine (Files.readsOnly_readText p).bind fun answer => ?_
  cases answer with
  | error e => exact .pure _
  | ok text =>
    dsimp only
    split
    next => exact .pure _
    next =>
      split
      next => exact .pure _
      next =>
        split
        next => exact .pure _
        next => exact .pure _

/-- At a path is a text that its extension says how to read, and read like that it sets these keys. -/
def Holds (t : FileTree) (p : Path) (layer : Layer) : Prop :=
  ∃ text extension format, t.read p = .ok (.text text) ∧ p.extension? = some extension ∧
    SettingsFormat.ofName? extension = some format ∧ parse? format text = some layer

/-- What keeps a path from having settings. -/
inductive Faulty (t : FileTree) (p : Path) : SettingsError → Prop where
  | unreadable {cause : FileError} : t.read p = .error cause → Faulty t p (.unreadable p cause)
  | notText {bytes : List UInt8} : t.read p = .ok (.bytes bytes) →
      Faulty t p (.unreadable p .notText)
  | noExtension {text : Text} : t.read p = .ok (.text text) → p.extension? = none →
      Faulty t p (.noExtension p)
  | unsupported {text : Text} {extension : Path} : t.read p = .ok (.text text) →
      p.extension? = some extension → SettingsFormat.ofName? extension = none →
      Faulty t p (.unsupportedFile p)
  | invalid {text : Text} {extension : Path} {format : SettingsFormat} :
      t.read p = .ok (.text text) → p.extension? = some extension →
      SettingsFormat.ofName? extension = some format → parse? format text = none →
      Faulty t p (.invalidText format)

def IsAt (t : FileTree) (p : Path) : Prop := ∃ layer, Holds t p layer

variable {t : FileTree} {p : Path} {layer layer' : Layer} {e e' : SettingsError}

theorem isAt_or_faulty (t : FileTree) (p : Path) : IsAt t p ∨ ∃ e, Faulty t p e := by
  cases hread : t.read p with
  | error cause => exact Or.inr ⟨_, .unreadable hread⟩
  | ok content =>
    cases content with
    | bytes bytes => exact Or.inr ⟨_, .notText hread⟩
    | text text =>
      cases hext : p.extension? with
      | none => exact Or.inr ⟨_, .noExtension hread hext⟩
      | some extension =>
        cases hname : SettingsFormat.ofName? extension with
        | none => exact Or.inr ⟨_, .unsupported hread hext hname⟩
        | some format =>
          cases hparse : parse? format text with
          | none => exact Or.inr ⟨_, .invalid hread hext hname hparse⟩
          | some layer => exact Or.inl ⟨layer, text, extension, format, hread, hext, hname, hparse⟩

/-- What the reader of settings makes of a text. -/
theorem answer_ofFile_of_text {text : Text} (h : t.read p = .ok (.text text)) :
    t.answer (ofFile p) = match p.extension? with
      | none => .error (.noExtension p)
      | some extension => match SettingsFormat.ofName? extension with
        | none => .error (.unsupportedFile p)
        | some format => match parse? format text with
          | none => .error (.invalidText format)
          | some layer => .ok layer := by
  rw [ofFile, (Files.readsOnly_readText p).answer_bind, Files.answer_readText_eq_ok_iff.mpr h]
  dsimp only
  cases p.extension? with
  | none => rfl
  | some extension =>
    dsimp only
    cases SettingsFormat.ofName? extension with
    | none => rfl
    | some format =>
      dsimp only
      cases parse? format text with
      | none => rfl
      | some layer => rfl

theorem answer_ofFile_of_noText {cause : FileError} (h : (t.read p).bind Content.text? = .error cause) :
    t.answer (ofFile p) = .error (.unreadable p cause) := by
  rw [ofFile, (Files.readsOnly_readText p).answer_bind, Files.answer_readText, h]
  rfl

theorem Holds.answer_ofFile (h : Holds t p layer) : t.answer (ofFile p) = .ok layer := by
  obtain ⟨text, extension, format, hread, hext, hname, hparse⟩ := h
  simp only [answer_ofFile_of_text hread, hext, hname, hparse]

theorem Faulty.answer_ofFile (h : Faulty t p e) : t.answer (ofFile p) = .error e := by
  cases h with
  | unreadable hread => exact answer_ofFile_of_noText (congrArg (·.bind Content.text?) hread)
  | notText hread => exact answer_ofFile_of_noText (congrArg (·.bind Content.text?) hread)
  | noExtension hread hext => simp only [answer_ofFile_of_text hread, hext]
  | unsupported hread hext hname => simp only [answer_ofFile_of_text hread, hext, hname]
  | invalid hread hext hname hparse => simp only [answer_ofFile_of_text hread, hext, hname, hparse]

theorem Holds.unique (h : Holds t p layer) (h' : Holds t p layer') : layer = layer' :=
  Except.ok.inj (h.answer_ofFile.symm.trans h'.answer_ofFile)

theorem Faulty.not_isAt (h : Faulty t p e) : ¬ IsAt t p := by
  rintro ⟨layer, hl⟩
  cases h.answer_ofFile.symm.trans hl.answer_ofFile

theorem Faulty.unique (h : Faulty t p e) (h' : Faulty t p e') : e = e' :=
  Except.error.inj (h.answer_ofFile.symm.trans h'.answer_ofFile)

theorem forall_isAt {files : List Path} {layers : List Layer}
    (h : List.Forall₂ (Holds t) files layers) : ∀ p ∈ files, IsAt t p := by
  induction h with
  | nil => exact fun p hp => absurd hp List.not_mem_nil
  | cons hp _ ih => exact List.forall_mem_cons.mpr ⟨⟨_, hp⟩, ih⟩

end Layer

namespace Settings

open Layer (Holds Faulty IsAt)

variable {s : Settings} {xs : List Setter}

theorem readsOnly_mergeFiles (s : Settings) (files : List Path) : ReadsOnly (s.mergeFiles files) := by
  induction files generalizing s with
  | nil => exact .pure _
  | cons p files ih =>
    refine (Layer.readsOnly_ofFile p).bind fun answer => ?_
    cases answer with
    | error e => exact .pure _
    | ok layer => exact ih (s.merge layer)

theorem mergeFiles_cases (t : FileTree) (files : List Path) (h : Ruled xs s) :
    (∃ layers s', List.Forall₂ (Holds t) files layers ∧ t.answer (s.mergeFiles files) = .ok s' ∧
      Ruled (xs ++ layers.map .file) s') ∨
    ∃ e, FirstFault (IsAt t) (Faulty t) files e ∧ t.answer (s.mergeFiles files) = .error e := by
  induction files generalizing s xs with
  | nil =>
    refine Or.inl ⟨[], s, .nil, rfl, ?_⟩
    rwa [List.map_nil, List.append_nil]
  | cons p files ih =>
    rw [mergeFiles, (Layer.readsOnly_ofFile p).answer_bind]
    rcases Layer.isAt_or_faulty t p with ⟨layer, hp⟩ | ⟨e, hp⟩
    · rw [hp.answer_ofFile]
      rcases ih (h.append_singleton (merge_obeys s layer)) with
        ⟨layers, s', hall, hs', hr⟩ | ⟨e, he, herror⟩
      · refine Or.inl ⟨layer :: layers, s', .cons hp hall, hs', ?_⟩
        rwa [List.append_assoc] at hr
      · exact Or.inr ⟨e, .cons ⟨layer, hp⟩ he, herror⟩
    · rw [hp.answer_ofFile]
      exact Or.inr ⟨e, .head hp, rfl⟩

/-- Where settings files are looked for if none is named. -/
def places (env : Environment) : List Path :=
  fileNames.map (fun name => Path.join env.workFolder name) ++
    match env.settingsHome with
    | some dir => homeNames.map fun name => Path.join dir name
    | none => []

/-- The settings files that count: the named ones, or else the first of those looked for that is there. -/
def chosen (env : Environment) (t : FileTree) (files : List Path) : List Path :=
  if files = [] then ((places env).find? fun p => (t.kind? p).isSome).toList else files

theorem readsOnly_find (env : Environment) : ReadsOnly (find env) :=
  Files.readsOnly_firstThere? (places env)

theorem pure_applyOverrides (overrides : List Text) (merged : Except SettingsError Settings) :
    (match merged with
      | .error e => pure (.error e)
      | .ok s => pure (s.applyOverrides overrides) : StateM FileTree (Except SettingsError Settings)) =
      pure (merged.bind (·.applyOverrides overrides)) := by
  cases merged with
  | error e => rfl
  | ok s => rfl

theorem load_eq (env : Environment) (files : List Path) (overrides : List Text) :
    load (m := StateM FileTree) env files overrides =
      (if files = [] then Option.toList <$> find env else pure files) >>= fun chosen =>
        default.mergeFiles chosen >>= fun merged =>
          pure (merged.bind (·.applyOverrides overrides)) := by
  rw [← funext (pure_applyOverrides overrides)]
  cases files with
  | nil => rfl
  | cons p files => rfl

theorem readsOnly_chosen (env : Environment) (files : List Path) :
    ReadsOnly (if files = [] then Option.toList <$> find env else pure files) :=
  .ite ((readsOnly_find env).bind fun _ => .pure _) (.pure _)

theorem answer_chosen (env : Environment) (t : FileTree) (files : List Path) :
    t.answer (if files = [] then Option.toList <$> find env else pure files) = chosen env t files := by
  cases files with
  | nil => exact congrArg Option.toList (Files.answer_firstThere? t (places env))
  | cons p files => rfl

theorem readsOnly_load (env : Environment) (files : List Path) (overrides : List Text) :
    ReadsOnly (load env files overrides) := by
  rw [load_eq]
  exact (readsOnly_chosen env files).bind fun chosen =>
    (readsOnly_mergeFiles default chosen).bind fun _ => .pure _

theorem answer_load (env : Environment) (t : FileTree) (files : List Path) (overrides : List Text) :
    t.answer (load env files overrides) =
      (t.answer (default.mergeFiles (chosen env t files))).bind (·.applyOverrides overrides) := by
  rw [load_eq, (readsOnly_chosen env files).answer_bind, answer_chosen,
    (readsOnly_mergeFiles default _).answer_bind]
  rfl

/-- Loading goes wrong at the first bad file, or else at the first bad override, or not at all. -/
theorem load_cases (env : Environment) (t : FileTree) (files : List Path) (overrides : List Text) :
    (∃ layers s, List.Forall₂ (Holds t) (chosen env t files) layers ∧
      (∀ o ∈ overrides, IsOverride o) ∧ t.answer (load env files overrides) = .ok s ∧
      Ruled (.default :: (layers.map .file ++ overrides.map .override)) s) ∨
    (∃ e, FirstFault (IsAt t) (Faulty t) (chosen env t files) e ∧
      t.answer (load env files overrides) = .error e) ∨
    ∃ e, (∀ p ∈ chosen env t files, IsAt t p) ∧ FirstFault IsOverride Refused overrides e ∧
      t.answer (load env files overrides) = .error (.badOverride e) := by
  rw [answer_load]
  rcases mergeFiles_cases t (chosen env t files) ruled_default with
    ⟨layers, s, hlayers, hs, hr⟩ | ⟨e, he, herror⟩
  · rw [hs]
    rcases applyOverrides_cases overrides hr with ⟨hall, s', hs', hr'⟩ | ⟨e, he, herror⟩
    · exact Or.inl ⟨layers, s', hlayers, hall, hs', hr'⟩
    · exact Or.inr (Or.inr ⟨e, Layer.forall_isAt hlayers, he, herror⟩)
  · rw [herror]
    exact Or.inr (Or.inl ⟨e, he, rfl⟩)

end Settings

theorem Invocation.mergeInto_obeys {i : Invocation} {sources : List Path} {output outputDir : Option Path}
    {jobs : Option Nat} {toOutput : Bool}
    (hi : i.command = .convert sources output outputDir jobs toOutput) (s : Settings) :
    s.Obeys (.flags outputDir jobs) (i.mergeInto s) := by
  rw [mergeInto, hi]
  constructor
  · intro k v hv
    cases hv with
    | outputDirFlag => rfl
    | jobsFlag => rfl
  · intro k hk
    cases k with
    | outputDir =>
      cases outputDir with
      | none => rfl
      | some dir => exact absurd .outputDirFlag (hk (some dir))
    | jobs =>
      cases jobs with
      | none => rfl
      | some n => exact absurd .jobsFlag (hk (some n))
    | _ => rfl

namespace Settings

open Layer (Holds Faulty IsAt)

/-- Loading changes nothing. It fails for the first bad file, or else for the first bad override; if there
is none, every setting of a conversion is as the last to set it says: the command line, the last override
of it, the last file that holds it, or the default. -/
theorem load_outcome (env : Environment) (t : FileTree) (i : Invocation) {sources : List Path}
    {output outputDir : Option Path} {jobs : Option Nat} {toOutput : Bool}
    (hi : i.command = .convert sources output outputDir jobs toOutput) :
    ∃ r, (load (m := StateM FileTree) env i.settingsFiles i.overrides).run t = (r, t) ∧
      (∀ e, r = .error e ↔
        FirstFault (IsAt t) (Faulty t) (chosen env t i.settingsFiles) e ∨
        (∀ p ∈ chosen env t i.settingsFiles, IsAt t p) ∧
          ∃ cause, FirstFault IsOverride Refused i.overrides cause ∧ e = .badOverride cause) ∧
      ((∃ s, r = .ok s) ↔
        (∀ p ∈ chosen env t i.settingsFiles, IsAt t p) ∧ ∀ o ∈ i.overrides, IsOverride o) ∧
      ∀ s, r = .ok s → ∃ layers, List.Forall₂ (Holds t) (chosen env t i.settingsFiles) layers ∧
        Ruled (.default :: (layers.map .file ++ i.overrides.map .override ++ [.flags outputDir jobs]))
          (i.mergeInto s) := by
  have hfile : ∀ p e, Faulty t p e → ¬ IsAt t p := fun _ _ h => h.not_isAt
  have hover : ∀ o e, Refused o e → ¬ IsOverride o := fun _ _ h => h.not_isOverride
  refine ⟨_, (readsOnly_load env i.settingsFiles i.overrides).run_eq t, ?_⟩
  rcases load_cases env t i.settingsFiles i.overrides with
    ⟨layers, s, hlayers, hall, hs, hr⟩ | ⟨e, he, hs⟩ | ⟨cause, hfiles, hc, hs⟩
  · have hfiles := Layer.forall_isAt hlayers
    rw [hs]
    refine ⟨fun e => ⟨fun h => (by cases h), ?_⟩, ⟨fun _ => ⟨hfiles, hall⟩, fun _ => ⟨s, rfl⟩⟩, ?_⟩
    · rintro (he | ⟨_, cause, hc, _⟩)
      · exact absurd hfiles (he.not_forall hfile)
      · exact absurd hall (hc.not_forall hover)
    · rintro s' hs'
      cases hs'
      exact ⟨layers, hlayers, hr.append_singleton (i.mergeInto_obeys hi s)⟩
  · rw [hs]
    refine ⟨fun e' => ⟨?_, ?_⟩, ⟨?_, ?_⟩, fun s h => (by cases h)⟩
    · rintro h
      cases h
      exact Or.inl he
    · rintro (he' | ⟨hfiles, _⟩)
      · rw [he.unique hfile he' fun _ _ _ h h' => h.unique h']
      · exact absurd hfiles (he.not_forall hfile)
    · rintro ⟨s, h⟩
      cases h
    · exact fun h => absurd h.1 (he.not_forall hfile)
  · rw [hs]
    refine ⟨fun e' => ⟨?_, ?_⟩, ⟨?_, ?_⟩, fun s h => (by cases h)⟩
    · rintro h
      cases h
      exact Or.inr ⟨hfiles, cause, hc, rfl⟩
    · rintro (he' | ⟨_, cause', hc', rfl⟩)
      · exact absurd hfiles (he'.not_forall hfile)
      · rw [hc.unique hover hc' fun _ _ _ h h' => h.unique h']
    · rintro ⟨s, h⟩
      cases h
    · exact fun h => absurd h.2 (hc.not_forall hover)

/-- Two settings files, of which the second leaves out most keys, and one in no known format. -/
def twoLayers : FileTree :=
  ⟨[], [(["a.toml".toList], .file (.text
      "output_dir = \"first\"\noutput_extension = \"htm\"\nline_separator = \"|\"\njobs = 2\n".toList)),
    (["b.json".toList], .file (.text "\x7b\"output_extension\": \"xhtml\"\x7d".toList)),
    (["c.yaml".toList], .file (.text "jobs: 3\n".toList))]⟩

/-- The separator stays as the first file has it and the extension as the second has it, an override unsets
the folder, and the command line has its own number of jobs. Of several faults the first one counts. -/
theorem load_outcome_twoLayers :
    let first : Layer := ⟨some "first".toList, some "htm".toList, some ['|'], some 2⟩
    let second : Layer := { outputExtension := some "xhtml".toList }
    let i : Invocation := ⟨false, ["a.toml".toList, "b.json".toList], ["output_dir=".toList],
      .convert ["x.hb".toList] none none (some 5) false⟩
    let bad : Invocation := { i with
      settingsFiles := ["a.toml".toList, "c.yaml".toList, "d.toml".toList], overrides := ["jobs=x".toList] }
    Holds twoLayers "a.toml".toList first ∧ Holds twoLayers "b.json".toList second ∧
      (∃ s, (load (m := StateM FileTree) ⟨[], none⟩ i.settingsFiles i.overrides).run twoLayers =
          (.ok s, twoLayers) ∧
        i.mergeInto s = ⟨none, "xhtml".toList, ['|'], some 5⟩ ∧
        Ruled [.default, .file first, .file second, .override "output_dir=".toList, .flags none (some 5)]
          (i.mergeInto s)) ∧
      (load (m := StateM FileTree) ⟨[], none⟩ bad.settingsFiles bad.overrides).run twoLayers =
        (.error (.unsupportedFile "c.yaml".toList), twoLayers) := by
  intro first second i bad
  have hfirst : Holds twoLayers "a.toml".toList first :=
    ⟨_, "toml".toList, .toml, rfl, by decide, by decide, by decide +kernel⟩
  have hsecond : Holds twoLayers "b.json".toList second :=
    ⟨_, "json".toList, .json, rfl, by decide, by decide, by decide +kernel⟩
  refine ⟨hfirst, hsecond, ?_, ?_⟩
  · obtain ⟨r, hr, _, _, hok⟩ := load_outcome ⟨[], none⟩ twoLayers i rfl
    have hrun : twoLayers.answer (load ⟨[], none⟩ i.settingsFiles i.overrides) =
        .ok ⟨none, "xhtml".toList, ['|'], some 2⟩ := by decide +kernel
    obtain rfl : r = .ok ⟨none, "xhtml".toList, ['|'], some 2⟩ := (congrArg Prod.fst hr).symm.trans hrun
    obtain ⟨layers, hlayers, hruled⟩ := hok _ rfl
    obtain rfl : layers = [first, second] :=
      List.right_unique_forall₂' (fun _ _ _ h h' => h.unique h') hlayers (.cons hfirst (.cons hsecond .nil))
    exact ⟨_, hr, rfl, hruled⟩
  · obtain ⟨r, hr, herror, _⟩ := load_outcome ⟨[], none⟩ twoLayers bad rfl
    have hyaml : Faulty twoLayers "c.yaml".toList (.unsupportedFile "c.yaml".toList) :=
      .unsupported rfl (show Path.extension? _ = some "yaml".toList by decide) (by decide)
    rw [hr, (herror _).mpr (Or.inl (.cons ⟨first, hfirst⟩ (.head hyaml)))]

end Settings

end LineMarkup
