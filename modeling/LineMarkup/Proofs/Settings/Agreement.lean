import LineMarkup.Proofs.Fallible
import LineMarkup.Starter

/-!
Settings that are read at once, and settings that are read as a layer and put over the defaults. For TOML the
two come to the same. In a JSON object a layer may have `null` where settings may not, and nothing else sets
the two apart.
-/

namespace LineMarkup

set_option autoImplicit false

open Settings (Key)

namespace Json

variable {α : Type} {name : Text} {v : Json} {members : List (Option Text × Json)}
  {named : List (Text × Json)}

theorem optional?_of_ne_null (read : Json → Option α) (h : v ≠ .null) :
    optional? read v = (read v).map some := by
  cases v with
  | null => exact absurd rfl h
  | _ => rfl

/-- A name that is given at most once has the value that it is given with. -/
theorem mem_iff_of_member {found : Option Json} (h : member name named = some found) :
    (name, v) ∈ named ↔ found = some v := by
  have hmem : (name, v) ∈ named ↔ (name, v) ∈ named.filter fun m => m.1 = name := by
    simp [List.mem_filter]
  rw [hmem]
  unfold member at h
  split at h
  next hnil =>
    cases h
    simp [hnil]
  next n w hone =>
    cases h
    have hn : n = name := by
      have hw : (n, w) ∈ named.filter fun m => m.1 = name := hone ▸ List.mem_singleton_self _
      simpa using (List.mem_filter.mp hw).2
    rw [hone, List.mem_singleton, hn]
    simp [eq_comm]
  next => cases h

theorem mem_iff_of_named (h : named? members = some named) :
    (name, v) ∈ named ↔ (some name, v) ∈ members := by
  have hsome : (name, v) ∈ named ↔ some (name, v) ∈ named.map some := by simp
  rw [hsome, ← map_eq_of_mapM_eq_some h, List.mem_map]
  constructor
  · rintro ⟨⟨name?, w⟩, hmem, heq⟩
    cases name? with
    | none => cases heq
    | some n =>
      cases heq
      exact hmem
  · exact fun hmem => ⟨_, hmem, rfl⟩

instance : (v : Json) → Decidable (v = .null)
  | .null => isTrue rfl
  | .bool _ | .number _ | .string _ | .array _ | .object _ => isFalse nofun

/-- Neither of the settings that have a default is `null`. -/
def SparesDefaults (members : List (Option Text × Json)) : Prop :=
  ∀ m ∈ members, m.2 = .null → m.1 ≠ some Key.outputExtension.name ∧ m.1 ≠ some Key.lineSeparator.name

instance : Decidable (SparesDefaults members) :=
  inferInstanceAs (Decidable (∀ m ∈ members, m.2 = .null →
    m.1 ≠ some Key.outputExtension.name ∧ m.1 ≠ some Key.lineSeparator.name))

end Json

/-- The keys that have a default. -/
def Settings.Key.HasDefault (k : Key) : Prop := k = .outputExtension ∨ k = .lineSeparator

theorem Json.sparesDefaults_iff {members : List (Option Text × Json)} :
    SparesDefaults members ↔ ∀ k : Key, k.HasDefault → (some k.name, Json.null) ∉ members := by
  constructor
  · rintro h k (rfl | rfl) hmem
    · exact (h _ hmem rfl).1 rfl
    · exact (h _ hmem rfl).2 rfl
  · rintro h ⟨name?, v⟩ hmem rfl
    constructor
    · rintro rfl
      exact h .outputExtension (Or.inl rfl) hmem
    · rintro rfl
      exact h .lineSeparator (Or.inr rfl) hmem

namespace Given

def get {α : Type} (g : Given α) : Key → Option α
  | .outputDir => g.outputDir
  | .outputExtension => g.outputExtension
  | .lineSeparator => g.lineSeparator
  | .jobs => g.jobs

variable {g : Given Json} {k : Key} {v : Json} {named : List (Text × Json)}

theorem get_eq_some_iff_mem (h : ofMembers? named = some g) :
    g.get k = some v ↔ (k.name, v) ∈ named := by
  obtain ⟨dir, hdir, h⟩ := Option.bind_eq_some_iff.mp h
  obtain ⟨extension, hextension, h⟩ := Option.bind_eq_some_iff.mp h
  obtain ⟨separator, hseparator, h⟩ := Option.bind_eq_some_iff.mp h
  obtain ⟨jobs, hjobs, h⟩ := Option.bind_eq_some_iff.mp h
  cases h
  cases k with
  | outputDir => exact (Json.mem_iff_of_member hdir).symm
  | outputExtension => exact (Json.mem_iff_of_member hextension).symm
  | lineSeparator => exact (Json.mem_iff_of_member hseparator).symm
  | jobs => exact (Json.mem_iff_of_member hjobs).symm

/-- What is read for each key makes settings, as it makes a layer over the defaults. -/
theorem map_merge (dir : Option (Option Path)) (extension separator : Option (Option Text))
    (jobs : Option (Option Nat)) :
    (do some (⟨← dir, ← extension, ← separator, ← jobs⟩ : Layer)).map Settings.default.merge = (do
      let dir ← dir
      let extension ← extension
      let separator ← separator
      let jobs ← jobs
      some ⟨dir, extension.getD Settings.default.outputExtension,
        separator.getD Settings.default.lineSeparator, jobs⟩) := by
  cases dir with
  | none => rfl
  | some dir =>
    cases extension with
    | none => rfl
    | some extension =>
      cases separator with
      | none => rfl
      | some separator =>
        cases jobs with
        | none => rfl
        | some jobs => cases dir <;> cases jobs <;> rfl

theorem read?_optional {α : Type} (read : Json → Option α) {v? : Option Json} (h : v? ≠ some .null) :
    read? (Json.optional? read) v? = read? (fun v => (read v).map some) v? := by
  cases v? with
  | none => rfl
  | some v => exact Json.optional?_of_ne_null read fun hv => h (congrArg some hv)

theorem jsonSettings?_of_ne_null (h : ∀ k : Key, k.HasDefault → g.get k ≠ some .null) :
    g.jsonSettings? = g.jsonLayer?.map Settings.default.merge := by
  have hextension : g.outputExtension ≠ some .null := h .outputExtension (Or.inl rfl)
  have hseparator : g.lineSeparator ≠ some .null := h .lineSeparator (Or.inr rfl)
  rw [jsonLayer?, map_merge, read?_optional _ hextension, read?_optional _ hseparator]
  rfl

theorem jsonSettings?_of_null (hk : k.HasDefault) (h : g.get k = some .null) :
    g.jsonSettings? = none := by
  cases hsettings : g.jsonSettings? with
  | none => rfl
  | some s =>
    obtain ⟨_, _, hsettings⟩ := Option.bind_eq_some_iff.mp hsettings
    obtain ⟨_, hextension, hsettings⟩ := Option.bind_eq_some_iff.mp hsettings
    obtain ⟨_, hseparator, _⟩ := Option.bind_eq_some_iff.mp hsettings
    rcases hk with rfl | rfl
    · rw [show g.outputExtension = some .null from h] at hextension
      cases hextension
    · rw [show g.lineSeparator = some .null from h] at hseparator
      cases hseparator

theorem jsonSettings?_eq_iff : g.jsonSettings? = g.jsonLayer?.map Settings.default.merge ↔
    (g.jsonLayer?.isSome = true → ∀ k : Key, k.HasDefault → g.get k ≠ some .null) := by
  constructor
  · intro heq hsome k hk hnull
    rw [jsonSettings?_of_null hk hnull, eq_comm, Option.map_eq_none_iff] at heq
    rw [heq] at hsome
    cases hsome
  · intro h
    by_cases hnull : ∀ k : Key, k.HasDefault → g.get k ≠ some .null
    · exact jsonSettings?_of_ne_null hnull
    · have hnone : g.jsonLayer? = none := by
        cases hlayer : g.jsonLayer? with
        | none => rfl
        | some l => exact absurd (h (by rw [hlayer]; rfl)) hnull
      push Not at hnull
      obtain ⟨k, hk, hnull⟩ := hnull
      rw [jsonSettings?_of_null hk hnull, hnone]
      rfl

end Given

namespace Settings

theorem ofToml?_eq (entries : Toml.Entries) :
    ofToml? entries = (Layer.ofToml? entries).map default.merge := by
  rw [Layer.ofToml?, Given.map_merge]
  rfl

theorem ofJson?_object_iff (members : List (Option Text × Json)) :
    ofJson? (.object members) = (Layer.ofJson? (.object members)).map default.merge ↔
      ((Layer.ofJson? (.object members)).isSome = true → Json.SparesDefaults members) := by
  rw [ofJson?, Layer.ofJson?, Json.sparesDefaults_iff]
  cases hnamed : Json.named? members with
  | none => simp
  | some named =>
    rw [Option.bind_some]
    cases hgiven : Given.ofMembers? named with
    | none => simp
    | some g =>
      rw [Option.bind_some, Option.bind_some, Given.jsonSettings?_eq_iff]
      simp only [ne_eq, Given.get_eq_some_iff_mem hgiven, Json.mem_iff_of_named hnamed]

/-- Settings that are read at once are the defaults with the layer that is read from the same text, and they are
there if that is: for TOML always, and for a JSON object exactly if no setting with a default is `null` in it
or the layer is invalid as well. -/
theorem parse?_eq_map_merge : (∀ t, parse? .toml t = (Layer.parse? .toml t).map default.merge) ∧
    ∀ t members, Json.parse? t = some (.object members) →
      (parse? .json t = (Layer.parse? .json t).map default.merge ↔
        ((Layer.parse? .json t).isSome = true → Json.SparesDefaults members)) := by
  constructor
  · intro t
    rw [parse?, Layer.parse?]
    cases Toml.parse? t with
    | none => rfl
    | some entries => exact ofToml?_eq entries
  · intro t members h
    rw [parse?, Layer.parse?, h, Option.bind_some, Option.bind_some]
    exact ofJson?_object_iff members

/-- The folder is `null`, and something else that is no setting. -/
def partlyNull : Text := "\x7b\"output_dir\": null, \"output_extension\": \"htm\", \"x\": null\x7d".toList

theorem parse?_eq_map_merge_partlyNull : ∃ members,
    Json.parse? partlyNull = some (.object members) ∧ Json.SparesDefaults members ∧
      parse? .json partlyNull = (Layer.parse? .json partlyNull).map default.merge ∧
      parse? .toml Starter.tomlSettings = (Layer.parse? .toml Starter.tomlSettings).map default.merge := by
  have hparse : Json.parse? partlyNull = some (.object [("output_dir".toList, .null),
      ("output_extension".toList, .string "htm".toList), ("x".toList, .null)]) := rfl
  have hspares : Json.SparesDefaults [("output_dir".toList, .null),
      ("output_extension".toList, .string "htm".toList), ("x".toList, .null)] := by decide
  exact ⟨_, hparse, hspares, (parse?_eq_map_merge.2 _ _ hparse).mpr fun _ => hspares,
    parse?_eq_map_merge.1 _⟩

/-- A value that is `null` leaves a layer as it is, and is no setting. -/
example : (Layer.parse? .json "\x7b\"line_separator\": null\x7d".toList).map default.merge = some default ∧
    parse? .json "\x7b\"line_separator\": null\x7d".toList = none := by
  decide +kernel

end Settings

end LineMarkup
