import LineMarkup.Proofs.Files.Alike
import LineMarkup.Proofs.Job.Batch

/-!
Batches whose jobs keep out of one another's way. Each job then does what it does alone on the tree at the
start, so neither the results nor the tree at the end depend on the order in which the jobs run, or on how
their requests come between one another.
-/

namespace LineMarkup

set_option autoImplicit false

/-- Two trees with the same entries. -/
structure FileTree.Same (t u : FileTree) : Prop where
  here : t.here = u.here
  get?_eq : ∀ at_, t.get? at_ = u.get? at_

namespace Job

/-- What a job is to read: its source, and the template that its source declares. -/
inductive Needs (c : Converter) (t : FileTree) (job : Job) : Path → Prop where
  | source : Needs c t job job.source
  | template {text name : Text} : t.read job.source = .ok (.text text) →
      (c.render text.lines).template? = some name →
      Needs c t job (templateBeside job.source name)

/-- The file that `a` is to write is not the one that `b` is to write, and it is not on the way to what
`b` is to read. -/
def Spares (c : Converter) (t : FileTree) (a b : Job) : Prop :=
  ∀ path, a.destination = .file path →
    (∀ path', b.destination = .file path' → t.resolve path ≠ t.resolve path') ∧
      ∀ p, Needs c t b p → t.resolve path ∉ t.trail p

/-- The folders of all destinations are there, and every job spares every other. -/
structure Independent (c : Converter) (t : FileTree) (jobs : List Job) : Prop where
  hasFolder : ∀ job ∈ jobs, ∀ path, job.destination = .file path → t.HasFolder path
  spares : jobs.Pairwise fun a b => Spares c t a b ∧ Spares c t b a

variable {c : Converter} {t : FileTree} {jobs jobs' : List Job} {i j : Nat} {a b job : Job}

def needed (c : Converter) (t : FileTree) (job : Job) : List Path :=
  job.source :: match t.read job.source with
    | .ok (.text text) =>
      ((c.render text.lines).template?.map (templateBeside job.source)).toList
    | _ => []

theorem mem_needed_iff {p : Path} : p ∈ needed c t job ↔ Needs c t job p := by
  rw [needed, List.mem_cons]
  constructor
  · rintro (rfl | hp)
    · exact .source
    · split at hp
      next text hread =>
        obtain ⟨name, hname, rfl⟩ := Option.map_eq_some_iff.mp (Option.mem_toList.mp hp)
        exact .template hread hname
      next => cases hp
  · intro h
    cases h with
    | source => exact Or.inl rfl
    | template hread hname =>
      right
      rw [hread]
      exact Option.mem_toList.mpr (Option.map_eq_some_iff.mpr ⟨_, hname, rfl⟩)

def file? (job : Job) : Option Path :=
  match job.destination with
  | .file path => some path
  | .output => none

theorem file?_eq_some_iff {path : Path} : job.file? = some path ↔ job.destination = .file path := by
  rw [file?]
  cases job.destination <;> simp

instance (c : Converter) (t : FileTree) (a b : Job) : Decidable (Spares c t a b) :=
  decidable_of_iff (∀ path ∈ a.file?, (∀ path' ∈ b.file?, t.resolve path ≠ t.resolve path') ∧
      ∀ p ∈ needed c t b, t.resolve path ∉ t.trail p) <| by
    simp only [Spares, Option.mem_def, file?_eq_some_iff, mem_needed_iff]

instance (c : Converter) (t : FileTree) (jobs : List Job) : Decidable (Independent c t jobs) :=
  decidable_of_iff ((∀ job ∈ jobs, ∀ path ∈ job.file?, t.HasFolder path) ∧
      jobs.Pairwise fun a b => Spares c t a b ∧ Spares c t b a) <| by
    simp only [Option.mem_def, file?_eq_some_iff]
    exact ⟨fun h => ⟨h.1, h.2⟩, fun h => ⟨h.hasFolder, h.spares⟩⟩

theorem Independent.perm (h : Independent c t jobs) (hp : jobs'.Perm jobs) : Independent c t jobs' :=
  ⟨fun job hjob => h.hasFolder job (hp.mem_iff.mp hjob),
    (hp.pairwise_iff fun hab => ⟨hab.2, hab.1⟩).mpr h.spares⟩

theorem Independent.spares_of_ne (h : Independent c t jobs) (ha : jobs[i]? = some a)
    (hb : jobs[j]? = some b) (hne : i ≠ j) : Spares c t a b := by
  obtain ⟨hi, rfl⟩ := List.getElem?_eq_some_iff.mp ha
  obtain ⟨hj, rfl⟩ := List.getElem?_eq_some_iff.mp hb
  rcases Nat.lt_or_gt_of_ne hne with hlt | hlt
  · exact (List.pairwise_iff_getElem.mp h.spares i j hi hj hlt).1
  · exact (List.pairwise_iff_getElem.mp h.spares j i hj hi hlt).2

/-- Only the job with this number is to write to a location. -/
def LeftTo (t : FileTree) (jobs : List Job) (i : Nat) (at_ : Location) : Prop :=
  ∀ j job path, jobs[j]? = some job → job.destination = .file path → t.resolve path = at_ → j = i

theorem Independent.leftTo_of_needs (h : Independent c t jobs) (hb : jobs[i]? = some b) {p : Path}
    (hp : Needs c t b p) {at_ : Location} (hat : at_ ∈ t.trail p) : LeftTo t jobs i at_ := by
  intro j job path hj hd hres
  by_contra hne
  exact ((h.spares_of_ne hj hb hne) path hd).2 p hp (hres ▸ hat)

theorem Independent.leftTo_resolve (h : Independent c t jobs) (hb : jobs[i]? = some b) {path : Path}
    (hd : b.destination = .file path) : LeftTo t jobs i (t.resolve path) := by
  intro j job path' hj hd' hres
  by_contra hne
  exact ((h.spares_of_ne hj hb hne) path' hd').1 path hd hres

end Job

namespace Batch

variable {c : Converter} {jobs : List Job} {job : Job} {t s u : FileTree} {i : Nat} {e : Event}
  {trace pre post : List (Nat × Event)} {results : List (Except JobError (Option Text))}
  {r : Except JobError (Option Text)} {at_ : Location}
  (h : Batch c jobs t trace results u) (hind : Job.Independent c t jobs)
include h hind

theorem asksForFolders (he : (i, e) ∈ trace) : AsksForFolders t e := by
  intro dir hdir
  obtain ⟨job, r, hjob, _, hrecord⟩ := h.record he
  rcases hrecord.cases_of_mem (mem_share.mpr he) with ⟨p, answer, rfl, _⟩ |
    ⟨path, html, hd, _, ⟨dir', habove, hdir' | hdir'⟩ | hw⟩
  · cases hdir
  · cases hdir.symm.trans hdir'
    exact ⟨path, hind.hasFolder job (List.mem_of_getElem? hjob) path hd, habove⟩
  · cases hdir.symm.trans hdir'
  · cases hdir.symm.trans hw

theorem asksForFolders_of_subset (hpre : pre ⊆ trace) :
    ∀ e ∈ pre.map Prod.snd, AsksForFolders t e := by
  intro e he
  obtain ⟨⟨i, e⟩, hmem, rfl⟩ := List.mem_map.mp he
  exact h.asksForFolders hind (hpre hmem)

/-- Before a request of a job, the tree is still as at the start, but for what the other jobs write. -/
theorem alikeOn {ls : List Location} (htrace : trace = pre ++ (i, e) :: post)
    (hs : Answers t (pre.map Prod.snd) s)
    (hls : ∀ at_ ∈ ls, t.get? at_ = some .folder ∨ Job.LeftTo t jobs i at_) :
    FileTree.AlikeOn s t ls := by
  have hasks := h.asksForFolders_of_subset hind (htrace ▸ List.subset_append_left pre _)
  refine ⟨hs.grows.here, fun at_ => hs.folder_iff hasks, fun at_ hat => ?_⟩
  rcases hls at_ hat with hfolder | hleft
  · rw [hfolder, hs.grows.folder at_ hfolder]
  · refine hs.get?_of_not_written hasks fun p text hw hp => ?_
    obtain ⟨j, hwj⟩ := mem_writes_share hw
    have hwhole : (p, text) ∈ writes (share j trace) := by
      rw [htrace, share_append, writes_append]
      exact List.mem_append_left _ hwj
    obtain ⟨job, hjob, hd, _⟩ := h.writes_share hwhole
    obtain rfl := hleft j job p hjob hd hp
    rw [h.writes_share_eq_nil htrace] at hwj
    cases hwj

/-- A request is answered as by the tree at the start, if others write nothing on its way. -/
theorem answer_of_leftTo (he : (i, e) ∈ trace)
    (hls : ∀ at_ ∈ t.trail e.request.path, t.get? at_ = some .folder ∨ Job.LeftTo t jobs i at_) :
    e.answer = t.answer e.request.send := by
  obtain ⟨pre, post, htrace⟩ := List.append_of_mem he
  have hall := h.answers
  rw [htrace, List.map_append, List.map_cons] at hall
  obtain ⟨s, hs, hrest⟩ := hall.split
  cases hrest with
  | cons hhappens _ =>
    rw [← (h.alikeOn hind htrace hs hls).answer_send]
    exact (congrArg Prod.fst hhappens).symm

theorem read_of_needs (hjob : jobs[i]? = some job) {p : Path} {answer : Except FileError Content}
    (he : (i, ⟨.read p, answer⟩) ∈ trace) (hp : Job.Needs c t job p) : t.read p = answer :=
  (h.answer_of_leftTo hind he fun _ hat => Or.inr (hind.leftTo_of_needs hjob hp hat)).symm

theorem needs_of_isInput (hjob : jobs[i]? = some job) {p : Path}
    (hp : IsInput c job.source (share i trace) p) : Job.Needs c t job p := by
  cases hp with
  | source => exact .source
  | template hread hname =>
    exact .template (h.read_of_needs hind hjob (mem_share.mp hread) .source) hname

/-- Every request is answered as by the tree at the start. -/
theorem answer_eq (he : (i, e) ∈ trace) : e.answer = t.answer e.request.send := by
  obtain ⟨job, r, hjob, _, hrecord⟩ := h.record he
  rcases hrecord.cases_of_mem (mem_share.mpr he) with ⟨p, answer, rfl, hp⟩ |
    ⟨path, html, hd, _, hon⟩
  · exact (h.read_of_needs hind hjob he (h.needs_of_isInput hind hjob hp)).symm
  · have hfolder := hind.hasFolder job (List.mem_of_getElem? hjob) path hd
    refine h.answer_of_leftTo hind he fun at_ hat => ?_
    have habove : ∀ {dir : Path}, dir.Above path → e.request.path = dir →
        t.get? at_ = some .folder := by
      rintro dir habove rfl
      rcases hfolder.of_above habove with hnil | hkind
      · rw [hnil] at hat
        cases hat
      · exact FileTree.folder_of_mem_trail hkind hat
    rcases hon with ⟨dir, ha, hdir | hdir⟩ | hw
    · exact Or.inl (habove ha (congrArg Request.path hdir))
    · exact Or.inl (habove ha (congrArg Request.path hdir))
    · have hpath : e.request.path = path := congrArg Request.path hw
      rw [hpath] at hat
      rcases hfolder.trail_cases hat with hget | rfl
      · exact Or.inl hget
      · exact Or.inr (hind.leftTo_resolve hjob hd)

/-- Every job does what it does alone. -/
theorem alone (hjob : jobs[i]? = some job) (hr : results[i]? = some r) :
    ∃ v, Answers t (share i trace) v ∧ (Job.run (m := StateM FileTree) c job).run t = (r, v) := by
  have hrun := h.run i job r hjob hr
  have hanswers : ∃ v, Answers t (share i trace) v := by
    refine Answers.exists_of_forall (fun e he => h.answer_eq hind (mem_share.mp he)) fun e he => ?_
    have hmem := mem_share.mp (List.dropLast_subset _ he)
    exact ⟨List.filterMap_eq_nil_iff.mp (Job.run_record hrun).writes_dropLast e he,
      h.asksForFolders hind hmem⟩
  obtain ⟨v, hv⟩ := hanswers
  rw [← List.append_nil (share i trace)] at hrun
  exact ⟨v, hv, (Job.follows_run c job).replayed _ _ _ _ _ hrun hv⟩

theorem results_eq : results = jobs.map fun job => t.answer (Job.run c job) := by
  refine List.ext_getElem? fun i => ?_
  rw [List.getElem?_map]
  cases hjob : jobs[i]? with
  | none => exact List.getElem?_eq_none (h.length_eq ▸ List.getElem?_eq_none_iff.mp hjob)
  | some job =>
    obtain ⟨r, hr⟩ := h.exists_result hjob
    obtain ⟨v, _, hrun⟩ := h.alone hind hjob hr
    rw [hr, Option.map_some, FileTree.answer, hrun]

theorem get?_destination (hjob : job ∈ jobs) {path : Path} (hd : job.destination = .file path) :
    u.get? (t.resolve path) =
      ((Job.run (m := StateM FileTree) c job).run t).2.get? (t.resolve path) := by
  obtain ⟨i, hi⟩ := List.mem_iff_getElem?.mp hjob
  obtain ⟨r, hr⟩ := h.exists_result hi
  obtain ⟨v, hv, hrun⟩ := h.alone hind hi hr
  rw [hrun]
  -- Whatever is written there, this job writes, and it writes once.
  have hown : ∀ p text, (p, text) ∈ writes (trace.map Prod.snd) → t.resolve p = t.resolve path →
      (p, text) ∈ writes (share i trace) := by
    intro p text hw hp
    obtain ⟨j, hwj⟩ := mem_writes_share hw
    obtain ⟨job', hjob', hd', _⟩ := h.writes_share hwj
    obtain rfl := hind.leftTo_resolve hi hd j job' p hjob' hd' hp
    exact hwj
  have hone : ∀ p text, (p, text) ∈ writes (share i trace) →
      p = path ∧ writes (share i trace) = [(path, text)] := by
    intro p text hw
    obtain ⟨job', hjob', hd', _, hws⟩ := h.writes_share hw
    cases hi.symm.trans hjob'
    cases hd.symm.trans hd'
    exact ⟨rfl, hws⟩
  by_cases hwrites : writes (share i trace) = []
  · have hnone : ∀ p text, (p, text) ∉ writes (share i trace) := by
      intro p text hw
      rw [hwrites] at hw
      cases hw
    rw [h.answers.get?_of_not_written (h.asksForFolders_of_subset hind (List.Subset.refl trace))
        fun p text hw hp => hnone p text (hown p text hw hp),
      hv.get?_of_not_written (fun e he => h.asksForFolders hind (mem_share.mp he))
        fun p text hw _ => hnone p text hw]
  · obtain ⟨⟨p, text⟩, hw⟩ := List.exists_mem_of_ne_nil _ hwrites
    obtain ⟨rfl, hws⟩ := hone p text hw
    have hsame : ∀ p' text', (p', text') ∈ writes (share i trace) → text' = text := by
      intro p' text' hw'
      rw [hws] at hw'
      exact ((Prod.mk.injEq _ _ _ _).mp (List.mem_singleton.mp hw')).2
    rw [h.answers.get?_of_written (mem_writes_of_share hw)
        fun p' text' hw' hp => hsame p' text' (hown p' text' hw' hp),
      hv.get?_of_written hw fun p' text' hw' _ => hsame p' text' hw']

theorem get?_elsewhere
    (hno : ∀ job ∈ jobs, ∀ path, job.destination = .file path → t.resolve path ≠ at_) :
    u.get? at_ = t.get? at_ := by
  refine h.answers.get?_of_not_written
    (h.asksForFolders_of_subset hind (List.Subset.refl trace)) fun p text hw => ?_
  obtain ⟨i, job, hjob, hd, _⟩ := h.converts_of_mem_writes hw
  exact hno job (List.mem_of_getElem? hjob) p hd

theorem same {jobs' : List Job} {trace' : List (Nat × Event)} {u' : FileTree}
    {results' : List (Except JobError (Option Text))} (hp : jobs'.Perm jobs)
    (h' : Batch c jobs' t trace' results' u') : u'.Same u := by
  have hind' := hind.perm hp
  refine ⟨h'.answers.grows.here.trans h.answers.grows.here.symm, fun at_ => ?_⟩
  by_cases hat : ∃ job ∈ jobs, ∃ path, job.destination = .file path ∧ t.resolve path = at_
  · obtain ⟨job, hjob, path, hd, rfl⟩ := hat
    rw [h.get?_destination hind hjob hd, h'.get?_destination hind' (hp.mem_iff.mpr hjob) hd]
  · have hno : ∀ job ∈ jobs, ∀ path, job.destination = .file path → t.resolve path ≠ at_ :=
      fun job hjob path hd hres => hat ⟨job, hjob, path, hd, hres⟩
    rw [h.get?_elsewhere hind hno,
      h'.get?_elsewhere hind' fun job hjob => hno job (hp.mem_iff.mp hjob)]

end Batch

namespace Job

/-- Jobs that keep out of one another's way come to the same results and leave the same tree, in
whatever order they run one after the other, and however a batch of them runs side by side. -/
theorem order_irrelevant (c : Converter) {jobs : List Job} {t : FileTree}
    (h : Independent c t jobs) :
    (∀ jobs', jobs'.Perm jobs →
      (runOn c jobs' t).1 = jobs'.map (fun job => t.answer (run c job)) ∧
        (runOn c jobs' t).2.Same (runOn c jobs t).2) ∧
    ∀ trace results u, Batch c jobs t trace results u →
      results = (runOn c jobs t).1 ∧ u.Same (runOn c jobs t).2 ∧
        failures results = failures (runOn c jobs t).1 ∧
        outcome results = outcome (runOn c jobs t).1 := by
  obtain ⟨trace, hbatch⟩ := Batch.exists_runOn c jobs t
  constructor
  · intro jobs' hp
    obtain ⟨trace', hbatch'⟩ := Batch.exists_runOn c jobs' t
    exact ⟨hbatch'.results_eq (h.perm hp), hbatch.same h hp hbatch'⟩
  · intro trace' results u hbatch'
    have hresults : results = (runOn c jobs t).1 :=
      (hbatch'.results_eq h).trans (hbatch.results_eq h).symm
    rw [hresults]
    exact ⟨rfl, hbatch.same h (List.Perm.refl jobs) hbatch', rfl, rfl⟩

def siblings : FileTree :=
  ⟨[], [(["a.hb".toList], .ofText "@template: t\n1\n".toList),
    (["b.hb".toList], .ofText "@template: none\n2\n".toList),
    (["out".toList], .folder),
    (["t".toList], .ofText "\x7b\x7bcontent\x7d\x7d".toList)]⟩

theorem order_irrelevant_siblings :
    Independent ⟨⟨0, 0, 0⟩, ['\n']⟩ siblings
        [⟨"a.hb".toList, .file "out/a.html".toList⟩, ⟨"b.hb".toList, .file "out/../b.html".toList⟩,
          ⟨"a.hb".toList, .output⟩] ∧
      (runOn ⟨⟨0, 0, 0⟩, ['\n']⟩
          [⟨"a.hb".toList, .output⟩, ⟨"a.hb".toList, .file "out/a.html".toList⟩,
            ⟨"b.hb".toList, .file "out/../b.html".toList⟩] siblings).1 =
        [⟨"a.hb".toList, .output⟩, ⟨"a.hb".toList, .file "out/a.html".toList⟩,
            ⟨"b.hb".toList, .file "out/../b.html".toList⟩].map
          (fun job => siblings.answer (run ⟨⟨0, 0, 0⟩, ['\n']⟩ job)) ∧
      (runOn ⟨⟨0, 0, 0⟩, ['\n']⟩
          [⟨"a.hb".toList, .output⟩, ⟨"a.hb".toList, .file "out/a.html".toList⟩,
            ⟨"b.hb".toList, .file "out/../b.html".toList⟩] siblings).2.Same
        (runOn ⟨⟨0, 0, 0⟩, ['\n']⟩
          [⟨"a.hb".toList, .file "out/a.html".toList⟩, ⟨"b.hb".toList, .file "out/../b.html".toList⟩,
            ⟨"a.hb".toList, .output⟩] siblings).2 := by
  have h : Independent ⟨⟨0, 0, 0⟩, ['\n']⟩ siblings
      [⟨"a.hb".toList, .file "out/a.html".toList⟩, ⟨"b.hb".toList, .file "out/../b.html".toList⟩,
        ⟨"a.hb".toList, .output⟩] := by decide +kernel
  exact ⟨h, (order_irrelevant ⟨⟨0, 0, 0⟩, ['\n']⟩ h).1 _ (by decide)⟩

end Job

end LineMarkup
