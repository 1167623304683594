import LineMarkup.Job
import LineMarkup.Proofs.Document.Outcome
import LineMarkup.Proofs.Files.Replay
import LineMarkup.Proofs.Path.Parent

/-!
What a job asks of the file system: to read its source and the template that the source declares, and
then, once the HTML is there, to make the folders of its destination and to write it. Nothing else is
read and nothing else is written.
-/

namespace LineMarkup

set_option autoImplicit false

variable {P : Event → Prop}

/-- A document that is converted on its own names its template by the whole path. -/
theorem Converter.convert_none {m : Type → Type} [Monad m] (c : Converter) (source : List Line)
    (load : Text → m (Except String Text)) :
    c.convert source none load = match (c.render source).template? with
      | none => pure (.error .missingTemplate)
      | some name => load name >>= fun answer => pure ((c.render source).finish name answer) :=
  c.convert_of_location Template.location_none load

/-- What a job reads when it asks for this: its source, or the template that the source, as the job
got it, declares. -/
inductive IsInput (c : Converter) (source : Path) (es : List Event) : Path → Prop where
  | source : IsInput c source es source
  | template {text name : Text} : ⟨.read source, .ok (.text text)⟩ ∈ es →
      (c.render text.lines).template? = some name →
      IsInput c source es (templateBeside source name)

theorem IsInput.append {c : Converter} {source p : Path} {es : List Event} (h : IsInput c source es p)
    (more : List Event) : IsInput c source (es ++ more) p := by
  cases h with
  | source => exact .source
  | template hread hname => exact .template (List.mem_append_left more hread) hname

/-- A source has come out as this HTML, by the answers that were recorded. -/
def Converts (c : Converter) (source : Path) (es : List Event) (html : Text) : Prop :=
  ∃ rest, (Job.convertFile c source : Replay _).run es = some (.ok html, rest)

theorem Converts.unique {c : Converter} {source : Path} {es : List Event} {html html' : Text}
    (h : Converts c source es html) (h' : Converts c source es html') : html = html' := by
  obtain ⟨rest, hr⟩ := h
  obtain ⟨rest', hr'⟩ := h'
  cases hr.symm.trans hr'
  rfl

theorem Converter.follows_convert (c : Converter) (source : List Line)
    {load : Text → StateM FileTree (Except String Text)} {load' : Text → Replay (Except String Text)}
    (h : ∀ name, Follows P (load name) (load' name)) :
    Follows P (c.convert source none load) (c.convert source none load') := by
  rw [convert_none, convert_none]
  split
  next => exact Follows.pure _
  next name _ => exact (h name).bind fun _ => Follows.pure _

namespace Job

variable {c : Converter} {source : Path} {es rest : List Event}

theorem follows_readTemplate {name : Text}
    (hr : ∀ answer, P ⟨.read (templateBeside source name), answer⟩) :
    Follows P (readTemplate source name) (readTemplate source name) := by
  refine (Files.follows_readText hr).bind fun answer => ?_
  cases answer with
  | error e => exact Follows.pure _
  | ok text => exact Follows.pure _

theorem follows_readSource (hr : ∀ answer, P ⟨.read source, answer⟩) :
    Follows P (readSource source) (readSource source) := by
  refine (Files.follows_readText hr).bind fun answer => ?_
  cases answer with
  | error e => exact Follows.pure _
  | ok text => exact Follows.pure _

theorem follows_convertFile (c : Converter) (source : Path) (hr : ∀ p answer, P ⟨.read p, answer⟩) :
    Follows P (convertFile c source) (convertFile c source) := by
  refine (follows_readSource (hr source)).bind fun answer => ?_
  cases answer with
  | error e => exact Follows.pure _
  | ok lines =>
    refine (c.follows_convert lines fun name => ?_).bind fun answer => ?_
    · refine (follows_readTemplate (hr _)).bind fun answer => ?_
      cases answer with
      | error fault => exact Follows.pure _
      | ok text => exact Follows.pure _
    · cases answer with
      | error e => exact Follows.pure _
      | ok html => exact Follows.pure _

/-- A request that makes a folder above a path, or looks for one. -/
def OnFolder (path : Path) (e : Event) : Prop :=
  ∃ dir, dir.Above path ∧ (e.request = .makeFolder dir ∨ e.request = .kind? dir)

/-- Makes the folder of a file, if it has one. -/
def makeFolderOf {m : Type → Type} [Monad m] [Files m] (path : Path) : m (Except FileError Unit) :=
  match path.parent? with
  | none | some [] => pure (.ok ())
  | some folder => Files.makeFolders folder

theorem writeFile_eq {m : Type → Type} [Monad m] [Files m] (path : Path) (text : Text) :
    writeFile (m := m) path text = makeFolderOf path >>= fun made =>
      match made with
      | .error e => pure (.error e)
      | .ok _ => Files.write path text := by
  unfold writeFile makeFolderOf
  generalize path.parent? = parent
  match parent with
  | none => rfl
  | some [] => rfl
  | some (_ :: _) => rfl

theorem follows_makeFolders {path folder : Path} (hp : path.parent? = some folder) :
    Follows (OnFolder path) (Files.makeFolders folder) (Files.makeFolders folder) :=
  Files.follows_makeFolders (fun dir hdir _ => ⟨dir, .of_parent hp hdir, Or.inl rfl⟩)
    fun dir hdir _ => ⟨dir, .of_parent hp hdir, Or.inr rfl⟩

theorem follows_makeFolderOf (path : Path) :
    Follows (OnFolder path) (makeFolderOf path) (makeFolderOf path) := by
  rw [makeFolderOf, makeFolderOf]
  split
  next => exact Follows.pure _
  next => exact Follows.pure _
  next folder _ hp => exact follows_makeFolders hp

theorem follows_writeFile (path : Path) (text : Text) :
    Follows (fun e => OnFolder path e ∨ e.request = .write path text) (writeFile path text)
      (writeFile path text) := by
  rw [writeFile_eq, writeFile_eq]
  refine ((follows_makeFolderOf path).mono fun _ => Or.inl).bind fun made => ?_
  cases made with
  | error e => exact Follows.pure _
  | ok _ => exact Follows.send (r := .write path text) fun _ => Or.inr rfl

theorem follows_run (c : Converter) (job : Job) :
    Follows (fun _ => True) (run c job) (run c job) := by
  obtain ⟨source, destination⟩ := job
  refine (follows_convertFile c source fun _ _ => trivial).bind fun answer => ?_
  cases answer with
  | error e => exact Follows.pure _
  | ok html =>
    cases destination with
    | output => exact Follows.pure _
    | file path =>
      refine ((follows_writeFile path html).mono fun _ _ => trivial).bind fun answer => ?_
      cases answer with
      | error e => exact Follows.pure _
      | ok _ => exact Follows.pure _

theorem run_readSource {r : Except JobError (List Line)}
    (h : (readSource source : Replay _).run es = some (r, rest)) :
    ∃ answer : Except FileError Content, es = ⟨.read source, answer⟩ :: rest ∧
      ((∃ cause, r = .error (.unreadable source cause)) ∨
        ∃ text : Text, answer = .ok (.text text) ∧ r = .ok text.lines) := by
  obtain ⟨r', mid, hread, hr⟩ := Replay.run_bind_eq_some.mp h
  obtain ⟨answer, rfl, rfl⟩ := Files.run_readText hread
  cases answer with
  | error e =>
    obtain ⟨rfl, rfl⟩ := Replay.run_pure_eq_some.mp hr
    exact ⟨_, rfl, Or.inl ⟨e, rfl⟩⟩
  | ok content =>
    cases content with
    | bytes b =>
      obtain ⟨rfl, rfl⟩ := Replay.run_pure_eq_some.mp hr
      exact ⟨_, rfl, Or.inl ⟨.notText, rfl⟩⟩
    | text text =>
      obtain ⟨rfl, rfl⟩ := Replay.run_pure_eq_some.mp hr
      exact ⟨_, rfl, Or.inr ⟨text, rfl, rfl⟩⟩

theorem run_readTemplate {name : Text} {r : Except TemplateFault Text}
    (h : (readTemplate source name : Replay _).run es = some (r, rest)) :
    ∃ answer, es = ⟨.read (templateBeside source name), answer⟩ :: rest := by
  obtain ⟨r', mid, hread, hr⟩ := Replay.run_bind_eq_some.mp h
  obtain ⟨answer, rfl, rfl⟩ := Files.run_readText hread
  refine ⟨answer, ?_⟩
  split at hr
  next => rw [(Replay.run_pure_eq_some.mp hr).2]
  next => rw [(Replay.run_pure_eq_some.mp hr).2]

/-- All that a conversion asks for is its inputs. -/
def ReadsInputs (c : Converter) (source : Path) (es : List Event) : Prop :=
  ∀ e ∈ es, ∃ p answer, e = ⟨.read p, answer⟩ ∧ IsInput c source es p

theorem ReadsInputs.writes_eq_nil (h : ReadsInputs c source es) : writes es = [] := by
  apply LineMarkup.writes_eq_nil
  intro e he q text
  obtain ⟨p, answer, rfl, _⟩ := h e he
  simp

/-- The conversion of a source reads the source and the template which that declares, no more. -/
theorem run_convertFile {r : Except JobError Text}
    (h : (convertFile c source : Replay _).run es = some (r, rest)) :
    ∃ used, es = used ++ rest ∧ ReadsInputs c source used ∧
      ∀ path cause, r ≠ .error (.unwritable path cause) := by
  obtain ⟨lines, mid, hsource, h⟩ := Replay.run_bind_eq_some.mp h
  obtain ⟨answer, rfl, hlines⟩ := run_readSource hsource
  have hone : ∀ {used : List Event}, ∃ p answer',
      (⟨.read source, answer⟩ : Event) = ⟨.read p, answer'⟩ ∧ IsInput c source used p :=
    ⟨source, answer, rfl, .source⟩
  rcases hlines with ⟨cause, rfl⟩ | ⟨text, rfl, rfl⟩
  · obtain ⟨rfl, rfl⟩ := Replay.run_pure_eq_some.mp h
    exact ⟨[⟨.read source, answer⟩], rfl, by simpa [ReadsInputs] using hone, by simp⟩
  · obtain ⟨html, mid', hconvert, h⟩ := Replay.run_bind_eq_some.mp h
    have hr : mid' = rest ∧ ∀ path cause, r ≠ .error (.unwritable path cause) := by
      split at h
      next =>
        obtain ⟨rfl, rfl⟩ := Replay.run_pure_eq_some.mp h
        simp
      next =>
        obtain ⟨rfl, rfl⟩ := Replay.run_pure_eq_some.mp h
        simp
    obtain ⟨rfl, hr⟩ := hr
    rw [Converter.convert_none] at hconvert
    cases hname : (c.render text.lines).template? with
    | none =>
      rw [hname] at hconvert
      obtain ⟨_, rfl⟩ := Replay.run_pure_eq_some.mp hconvert
      exact ⟨[⟨.read source, .ok (.text text)⟩], rfl, by simpa [ReadsInputs] using hone, hr⟩
    | some name =>
      rw [hname] at hconvert
      obtain ⟨template, mid'', hload, hfinish⟩ := Replay.run_bind_eq_some.mp hconvert
      obtain ⟨_, rfl⟩ := Replay.run_pure_eq_some.mp hfinish
      obtain ⟨read, mid', hread, hpure⟩ := Replay.run_bind_eq_some.mp hload
      obtain ⟨answer, rfl⟩ := run_readTemplate hread
      have hrest : mid' = mid'' := by
        split at hpure
        next => exact (Replay.run_pure_eq_some.mp hpure).2
        next => exact (Replay.run_pure_eq_some.mp hpure).2
      refine ⟨[⟨.read source, .ok (.text text)⟩, ⟨.read (templateBeside source name), answer⟩],
        by rw [hrest]; rfl, ?_, hr⟩
      intro e he
      rcases List.mem_pair.mp he with rfl | rfl
      · exact hone
      · exact ⟨_, answer, rfl, .template List.mem_cons_self hname⟩

/-- What a job asks for, in order, and what it comes to by the answers: without HTML it has only read its
inputs; HTML for a file goes there once the folders above it are made. -/
inductive Record (c : Converter) (job : Job) : List Event → Except JobError (Option Text) → Prop where
  | unconverted {reads : List Event} {e : JobError} : ReadsInputs c job.source reads →
      (∀ path cause, e ≠ .unwritable path cause) → Record c job reads (.error e)
  | printed {reads : List Event} {html : Text} : ReadsInputs c job.source reads →
      job.destination = .output → Converts c job.source reads html →
      Record c job reads (.ok (some html))
  | noFolder {reads made : List Event} {path : Path} {html : Text} {cause : FileError} :
      ReadsInputs c job.source reads → job.destination = .file path →
      Converts c job.source (reads ++ made) html → (∀ e ∈ made, OnFolder path e) →
      Record c job (reads ++ made) (.error (.unwritable path cause))
  | refused {reads made : List Event} {path : Path} {html : Text} {cause : FileError} :
      ReadsInputs c job.source reads → job.destination = .file path →
      Converts c job.source (reads ++ (made ++ [⟨.write path html, .error cause⟩])) html →
      (∀ e ∈ made, OnFolder path e) →
      Record c job (reads ++ (made ++ [⟨.write path html, .error cause⟩]))
        (.error (.unwritable path cause))
  | written {reads made : List Event} {path : Path} {html : Text} :
      ReadsInputs c job.source reads → job.destination = .file path →
      Converts c job.source (reads ++ (made ++ [⟨.write path html, .ok ()⟩])) html →
      (∀ e ∈ made, OnFolder path e) →
      Record c job (reads ++ (made ++ [⟨.write path html, .ok ()⟩])) (.ok none)

theorem run_record {job : Job} {r : Except JobError (Option Text)}
    (h : (run c job : Replay _).run es = some (r, [])) : Record c job es r := by
  obtain ⟨source, destination⟩ := job
  obtain ⟨converted, mid, hconvert, h⟩ := Replay.run_bind_eq_some.mp h
  obtain ⟨reads, rfl, hreads, hr⟩ := run_convertFile hconvert
  cases converted with
  | error e =>
    obtain ⟨rfl, rfl⟩ := Replay.run_pure_eq_some.mp h
    rw [List.append_nil]
    exact .unconverted hreads fun path cause he => hr path cause (congrArg Except.error he)
  | ok html =>
    have hconverts : Converts c source (reads ++ mid) html := ⟨mid, hconvert⟩
    cases destination with
    | output =>
      obtain ⟨rfl, rfl⟩ := Replay.run_pure_eq_some.mp h
      rw [List.append_nil] at hconverts ⊢
      exact .printed hreads rfl hconverts
    | file path =>
      obtain ⟨written, rest, hwrite, hend⟩ := Replay.run_bind_eq_some.mp h
      rw [writeFile_eq] at hwrite
      obtain ⟨made, mid', hmade, hwrite⟩ := Replay.run_bind_eq_some.mp hwrite
      obtain ⟨used, rfl, hused⟩ := (follows_makeFolderOf path).requests mid made mid' hmade
      cases made with
      | error cause =>
        obtain ⟨rfl, rfl⟩ := Replay.run_pure_eq_some.mp hwrite
        obtain ⟨rfl, rfl⟩ := Replay.run_pure_eq_some.mp hend
        rw [List.append_nil] at hconverts ⊢
        exact .noFolder hreads rfl hconverts hused
      | ok _ =>
        obtain rfl := (Replay.run_send_eq_some (r := .write path html)).mp hwrite
        cases written with
        | error cause =>
          obtain ⟨rfl, rfl⟩ := Replay.run_pure_eq_some.mp hend
          exact .refused hreads rfl hconverts hused
        | ok _ =>
          obtain ⟨rfl, rfl⟩ := Replay.run_pure_eq_some.mp hend
          exact .written hreads rfl hconverts hused

theorem OnFolder.ne_write {path p : Path} {text : Text} {e : Event} (h : OnFolder path e) :
    e.request ≠ .write p text := by
  obtain ⟨dir, _, hdir | hdir⟩ := h
  · simp [hdir]
  · simp [hdir]

section
variable {job : Job} {r : Except JobError (Option Text)} (h : Record c job es r)
include h

/-- A job reads its inputs; whatever else it asks for, it asks for the sake of its destination, and when
the HTML is there. -/
theorem Record.cases_of_mem {e : Event} (he : e ∈ es) :
    (∃ p answer, e = ⟨.read p, answer⟩ ∧ IsInput c job.source es p) ∨
    ∃ path html, job.destination = .file path ∧ Converts c job.source es html ∧
      (OnFolder path e ∨ e.request = .write path html) := by
  have hread : ∀ {reads more : List Event}, ReadsInputs c job.source reads → e ∈ reads →
      ∃ p answer, e = ⟨.read p, answer⟩ ∧ IsInput c job.source (reads ++ more) p := by
    intro reads more hreads he
    obtain ⟨p, answer, heq, hp⟩ := hreads e he
    exact ⟨p, answer, heq, hp.append more⟩
  have hwrite : ∀ {made : List Event} {path : Path} {html : Text} {a : Except FileError Unit},
      (∀ e ∈ made, OnFolder path e) → e ∈ made ++ [⟨.write path html, a⟩] →
      OnFolder path e ∨ e.request = .write path html := by
    intro made path html a hmade he
    rcases List.mem_append.mp he with he | he
    · exact Or.inl (hmade e he)
    · rw [List.mem_singleton.mp he]
      exact Or.inr rfl
  cases h with
  | unconverted hreads _ => exact Or.inl (hreads e he)
  | printed hreads _ _ => exact Or.inl (hreads e he)
  | noFolder hreads hd hconverts hmade =>
    rcases List.mem_append.mp he with he | he
    · exact Or.inl (hread hreads he)
    · exact Or.inr ⟨_, _, hd, hconverts, Or.inl (hmade e he)⟩
  | refused hreads hd hconverts hmade =>
    rcases List.mem_append.mp he with he | he
    · exact Or.inl (hread hreads he)
    · exact Or.inr ⟨_, _, hd, hconverts, hwrite hmade he⟩
  | written hreads hd hconverts hmade =>
    rcases List.mem_append.mp he with he | he
    · exact Or.inl (hread hreads he)
    · exact Or.inr ⟨_, _, hd, hconverts, hwrite hmade he⟩

/-- A job reads its inputs only. -/
theorem Record.isInput {p : Path} {answer : Except FileError Content}
    (he : ⟨.read p, answer⟩ ∈ es) : IsInput c job.source es p := by
  rcases h.cases_of_mem he with ⟨q, answer', heq, hq⟩ | ⟨path, html, _, _, ⟨dir, _, hdir | hdir⟩ | hw⟩
  · cases heq
    exact hq
  · cases hdir
  · cases hdir
  · cases hw

/-- All a job writes is its HTML, to its destination, and it writes that if it succeeds and does not
hand the HTML back. -/
theorem Record.writes_cases :
    (writes es = [] ∧ ∀ path, job.destination = .file path → ∃ e, r = .error e) ∨
      ∃ path html, job.destination = .file path ∧ Converts c job.source es html ∧
        writes es = [(path, html)] ∧ r = .ok none := by
  have hmade : ∀ {made : List Event} {path : Path}, (∀ e ∈ made, OnFolder path e) →
      writes made = [] := fun hmade => writes_eq_nil fun e he _ _ => (hmade e he).ne_write
  cases h with
  | unconverted hreads _ => exact Or.inl ⟨hreads.writes_eq_nil, fun _ _ => ⟨_, rfl⟩⟩
  | printed hreads hd _ =>
    refine Or.inl ⟨hreads.writes_eq_nil, fun path hpath => ?_⟩
    cases hd.symm.trans hpath
  | noFolder hreads _ _ hon =>
    refine Or.inl ⟨?_, fun _ _ => ⟨_, rfl⟩⟩
    rw [writes_append, hreads.writes_eq_nil, hmade hon, List.append_nil]
  | refused hreads _ _ hon =>
    refine Or.inl ⟨?_, fun _ _ => ⟨_, rfl⟩⟩
    rw [writes_append, writes_append, hreads.writes_eq_nil, hmade hon]
    rfl
  | written hreads hd hconverts hon =>
    refine Or.inr ⟨_, _, hd, hconverts, ?_, rfl⟩
    rw [writes_append, writes_append, hreads.writes_eq_nil, hmade hon]
    rfl

/-- A job writes with its last request, if it writes at all. -/
theorem Record.writes_dropLast : writes es.dropLast = [] := by
  have hnone : ∀ {es : List Event}, writes es = [] → writes es.dropLast = [] := by
    intro es hes
    have hsub : (writes es.dropLast).Sublist (writes es) := (List.dropLast_sublist es).filterMap _
    rw [hes] at hsub
    exact List.sublist_nil.mp hsub
  have hmade : ∀ {reads made : List Event} {path : Path} {w : Event}, ReadsInputs c job.source reads →
      (∀ e ∈ made, OnFolder path e) → writes (reads ++ (made ++ [w])).dropLast = [] := by
    intro reads made path w hreads hon
    rw [← List.append_assoc, List.dropLast_concat, writes_append, hreads.writes_eq_nil,
      writes_eq_nil fun e he _ _ => (hon e he).ne_write]
    rfl
  cases h with
  | unconverted hreads _ => exact hnone hreads.writes_eq_nil
  | printed hreads _ _ => exact hnone hreads.writes_eq_nil
  | noFolder hreads _ _ hon =>
    refine hnone ?_
    rw [writes_append, hreads.writes_eq_nil, writes_eq_nil fun e he _ _ => (hon e he).ne_write]
    rfl
  | refused hreads _ _ hon => exact hmade hreads hon
  | written hreads _ _ hon => exact hmade hreads hon

end

end Job

end LineMarkup
