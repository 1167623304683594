import LineMarkup.Proofs.Files.Alike
import LineMarkup.Proofs.Files.Replay
import LineMarkup.Proofs.Path.Named
import LineMarkup.Settings.Files

/-!
The export of templates. A folder is made, with those above it, and then one template after the other is
written into it. Whatever stands elsewhere stays, also where the export breaks off; and without being forced
it replaces nothing, since it looks for each template before it writes.
-/

namespace LineMarkup

set_option autoImplicit false

section
variable {t u : FileTree} {dir p q : Path} {name : Text} {at_ : Location} {parts : List Text}
  {content : Content}

theorem FileTree.resolve_join (h : Path.IsName name) (t : FileTree) (dir : Path) :
    t.resolve (Path.join dir name) = t.resolve dir ++ [name] := by
  rw [resolve, resolve, start, start, h.isAbsolute_join, h.partsOf_join, List.foldl_append,
    List.foldl_cons, goOn, if_neg h.ne_dot, if_neg h.ne_dots]
  rfl

theorem FileTree.get?_of_kind? (h : (t.kind? p).isSome = true) : t.get? (t.resolve p) ≠ none := by
  unfold kind? at h
  split at h
  next => cases h
  next found hl =>
    rw [← locate_eq_ok hl]
    intro hnone
    rw [hnone] at h
    cases h

/-- A write to a path at which nothing was found has replaced nothing. -/
theorem FileTree.get?_of_write (hw : t.write p content = .ok u) (hnone : t.kind? p = none) :
    t.get? (t.resolve p) = none := by
  by_contra hsome
  have hthere := kind?_of_write hw (Option.isSome_iff_ne_none.mpr hsome)
  rw [hnone] at hthere
  cases hthere

/-- The folders of `u` that are not in `t` are those to which a path, or a path above it, leads. -/
def FileTree.FoldersTo (t u : FileTree) (dir : Path) : Prop :=
  ∀ at_, u.get? at_ = some .folder → t.get? at_ = some .folder ∨
    t.get? at_ = none ∧ ∃ q, (q = dir ∨ q.Above dir) ∧ u.locate q = .ok at_

theorem Files.makeFolders_adds (dir : Path) (t : FileTree) :
    t.AddsFolders ((makeFolders (m := StateM FileTree) dir).run t).2 ∧
      t.FoldersTo ((makeFolders (m := StateM FileTree) dir).run t).2 dir := by
  have hfollows : Follows (fun e => (∀ q, e.request = .makeFolder q → q = dir ∨ q.Above dir) ∧
      ∀ p text, e.request ≠ .write p text) (makeFolders dir) (makeFolders dir) := by
    refine follows_makeFolders (fun p hp answer => ⟨?_, nofun⟩) fun p hp answer => ⟨nofun, nofun⟩
    rintro q ⟨⟩
    exact hp
  obtain ⟨es, hanswers, hes⟩ := hfollows.exists_answers t
  refine ⟨hanswers.addsFolders (writes_eq_nil fun e he => (hes e he).2), fun at_ hu => ?_⟩
  rcases hanswers.folder_cases hu with ht | ⟨hnone, e, q, he, hq, hl⟩
  · exact Or.inl ht
  · exact Or.inr ⟨hnone, q, (hes e he).1 q hq, hl⟩

theorem prefix_foldl_goOn (at_ : Location) (h : ['.', '.'] ∉ parts) : at_ <+: parts.foldl goOn at_ := by
  induction parts generalizing at_ with
  | nil => exact List.prefix_rfl
  | cons part parts ih =>
    rw [List.mem_cons, not_or] at h
    have hgo : at_ <+: goOn at_ part := by
      rw [goOn, if_neg (Ne.symm h.1)]
      split
      next => exact List.prefix_rfl
      next => exact List.prefix_append at_ [part]
    exact hgo.trans (ih (goOn at_ part) h.2)

/-- A path that never goes up leads below where the paths above it lead. -/
theorem FileTree.resolve_prefix_of_above (t : FileTree) (h : q.Above dir) (hne : q ≠ [])
    (hup : ['.', '.'] ∉ partsOf dir) : t.resolve q <+: t.resolve dir := by
  obtain ⟨hle, rest, hparts⟩ := h.le
  rw [← hparts, List.mem_append, not_or] at hup
  rw [resolve, resolve, ← hparts, List.foldl_append, start_prefix_eq t hle hne]
  exact prefix_foldl_goOn _ hup.2

end

namespace Starter

/-- The ways in which templates are written into a folder, from one tree to another. -/
inductive Written (dir : Path) (force : Bool) :
    List (Text × Text) → FileTree → Except SettingsError (List Path) → FileTree → Prop where
  | nil (t : FileTree) : Written dir force [] t (.ok []) t
  | keep {name text : Text} {rest : List (Text × Text)} {t u : FileTree}
      {r : Except SettingsError (List Path)} :
      force = false → (t.kind? (Path.join dir name)).isSome = true → Written dir force rest t r u →
      Written dir force ((name, text) :: rest) t r u
  | refuse {name text : Text} {rest : List (Text × Text)} {t : FileTree} {e : FileError} :
      t.write (Path.join dir name) (.text text) = .error e →
      Written dir force ((name, text) :: rest) t
        (.error (.unwritableTemplate (Path.join dir name) e)) t
  | write {name text : Text} {rest : List (Text × Text)} {s t u : FileTree}
      {r : Except SettingsError (List Path)} :
      (force = false → t.kind? (Path.join dir name) = none) →
      t.write (Path.join dir name) (.text text) = .ok s → Written dir force rest s r u →
      Written dir force ((name, text) :: rest) t (r.map (Path.join dir name :: ·)) u

variable {dir : Path} {force : Bool} {ts : List (Text × Text)} {t u : FileTree}
  {r : Except SettingsError (List Path)} {at_ : Location} {paths : List Path}

theorem run_writeTemplates_cons (dir : Path) (force : Bool) (name text : Text)
    (rest : List (Text × Text)) (t : FileTree) :
    (writeTemplates (m := StateM FileTree) dir force ((name, text) :: rest)).run t =
      if !force && (t.kind? (Path.join dir name)).isSome then
        (writeTemplates (m := StateM FileTree) dir force rest).run t
      else match t.write (Path.join dir name) (.text text) with
        | .error e => (.error (.unwritableTemplate (Path.join dir name) e), t)
        | .ok s =>
          (((writeTemplates (m := StateM FileTree) dir force rest).run s).1.map (Path.join dir name :: ·),
            ((writeTemplates (m := StateM FileTree) dir force rest).run s).2) := by
  have hthere : t.answer (Files.isThere (Path.join dir name)) =
      (t.kind? (Path.join dir name)).isSome := rfl
  have hsend : (Files.write (m := StateM FileTree) (Path.join dir name) text).run t =
      (FileTree.commit fun t => t.write (Path.join dir name) (.text text)).run t := rfl
  rw [writeTemplates, (Files.readsOnly_isThere _).run_bind, hthere]
  split
  next => rfl
  next =>
    rw [StateT.run_bind, hsend, FileTree.run_commit]
    cases t.write (Path.join dir name) (.text text) with
    | error e => rfl
    | ok s =>
      show (StateT.run (writeTemplates dir force rest >>= _) s : Id _) = _
      rw [StateT.run_bind]
      dsimp only
      generalize (writeTemplates (m := StateM FileTree) dir force rest).run s = ran
      obtain ⟨r, u⟩ := ran
      cases r with
      | error e => rfl
      | ok paths => rfl

theorem written_writeTemplates (dir : Path) (force : Bool) (ts : List (Text × Text)) (t : FileTree) :
    Written dir force ts t ((writeTemplates (m := StateM FileTree) dir force ts).run t).1
      ((writeTemplates (m := StateM FileTree) dir force ts).run t).2 := by
  induction ts generalizing t with
  | nil => exact .nil t
  | cons x rest ih =>
    obtain ⟨name, text⟩ := x
    rw [run_writeTemplates_cons]
    split
    next hkeep =>
      simp only [Bool.and_eq_true, Bool.not_eq_true'] at hkeep
      exact .keep hkeep.1 hkeep.2 (ih t)
    next hgo =>
      have hnone : force = false → t.kind? (Path.join dir name) = none := by
        intro hforce
        simpa [hforce] using hgo
      cases hw : t.write (Path.join dir name) (.text text) with
      | error e => exact .refuse hw
      | ok s => exact .write hnone hw (ih s)

namespace Written

variable (h : Written dir force ts t r u)
include h

theorem grows : t.Grows u := by
  induction h with
  | nil t => exact .refl t
  | keep _ _ _ ih => exact ih
  | refuse => exact .refl _
  | write _ hw _ ih =>
    obtain ⟨_, _, _, hgrows, _⟩ := FileTree.write_eq_ok hw
    exact hgrows.trans ih

/-- Only where the path of a template leads something can have changed, and if nothing is replaced there was
nothing before. -/
theorem get?_cases (at_ : Location) : u.get? at_ = t.get? at_ ∨
    ∃ x ∈ ts, u.locate (Path.join dir x.1) = .ok at_ ∧ u.get? at_ = some (.ofText x.2) ∧
      (force = false → t.get? at_ = none) := by
  induction h with
  | nil t => exact Or.inl rfl
  | keep _ _ _ ih =>
    rcases ih with heq | ⟨x, hx, hwhere⟩
    · exact Or.inl heq
    · exact Or.inr ⟨x, List.mem_cons_of_mem _ hx, hwhere⟩
  | refuse => exact Or.inl rfl
  | @write name text rest s t u r hnone hw hrest ih =>
    obtain ⟨found, _, _, hgrows, hl⟩ := FileTree.write_eq_ok hw
    rcases ih with heq | ⟨x, hx, hlx, hfile, hno⟩
    · have hget := FileTree.get?_write hw at_
      rw [← hgrows.resolve, ← FileTree.locate_eq_ok hl] at hget
      rw [heq, hget]
      split
      next hat =>
        refine Or.inr ⟨(name, text), List.mem_cons_self, ?_, rfl, fun hforce => ?_⟩
        · exact hrest.grows.locate (hat ▸ hl)
        · rw [hat, FileTree.locate_eq_ok hl, hgrows.resolve]
          exact FileTree.get?_of_write hw (hnone hforce)
      next => exact Or.inl rfl
    · exact Or.inr ⟨x, List.mem_cons_of_mem _ hx, hlx, hfile, fun hforce => hgrows.eq_none (hno hforce)⟩

variable (hnames : ∀ x ∈ ts, Path.IsName x.1)
include hnames

variable (hdistinct : (ts.map Prod.fst).Nodup)
include hdistinct

/-- What is listed had nothing in its place. -/
theorem paths_eq (hforce : force = false) (hr : r = .ok paths) :
    paths = (ts.filter fun x => t.get? (t.resolve dir ++ [x.1]) = none).map fun x =>
      Path.join dir x.1 := by
  induction h generalizing paths with
  | nil t => exact (Except.ok.inj hr).symm
  | @keep name text rest t u r _ hthere _ ih =>
    obtain ⟨hname, hnames⟩ := List.forall_mem_cons.mp hnames
    have hsome := FileTree.get?_of_kind? hthere
    rw [FileTree.resolve_join hname] at hsome
    rw [ih hnames (List.nodup_cons.mp hdistinct).2 hr, List.filter_cons_of_neg (by simpa using hsome)]
  | refuse => cases hr
  | @write name text rest s t u r hnone hw _ ih =>
    obtain ⟨hname, hnames⟩ := List.forall_mem_cons.mp hnames
    obtain ⟨hnew, hdistinct⟩ := List.nodup_cons.mp hdistinct
    obtain ⟨_, _, _, hgrows, _⟩ := FileTree.write_eq_ok hw
    cases r with
    | error e => cases hr
    | ok more =>
      have hfree := FileTree.get?_of_write hw (hnone hforce)
      rw [FileTree.resolve_join hname] at hfree
      have hrest : rest.filter (fun x => s.get? (s.resolve dir ++ [x.1]) = none) =
          rest.filter fun x => t.get? (t.resolve dir ++ [x.1]) = none := by
        refine List.filter_congr fun x hx => ?_
        have hne : x.1 ≠ name := fun heq => hnew (List.mem_map.mpr ⟨x, hx, heq⟩)
        rw [FileTree.get?_write hw, hgrows.resolve, FileTree.resolve_join hname,
          if_neg (by simpa using hne)]
      rw [List.filter_cons_of_pos (by simpa using hfree), List.map_cons, ← hrest, ← ih hnames hdistinct rfl]
      exact (Except.ok.inj hr).symm

/-- If all are written, each is in its place in the end. -/
theorem holds (hforce : force = true) (hr : r = .ok paths) {x : Text × Text} (hx : x ∈ ts) :
    u.locate (Path.join dir x.1) = .ok (t.resolve dir ++ [x.1]) ∧
      u.get? (t.resolve dir ++ [x.1]) = some (.ofText x.2) := by
  induction h generalizing paths with
  | nil t => cases hx
  | keep hno => cases hno.symm.trans hforce
  | refuse => cases hr
  | @write name text rest s t u r hnone hw hrest ih =>
    obtain ⟨hname, hnames⟩ := List.forall_mem_cons.mp hnames
    obtain ⟨hnew, hdistinct⟩ := List.nodup_cons.mp hdistinct
    obtain ⟨found, _, _, hgrows, hl⟩ := FileTree.write_eq_ok hw
    cases r with
    | error e => cases hr
    | ok more =>
      rcases List.mem_cons.mp hx with rfl | hx
      · have hfound : found = t.resolve dir ++ [name] := by
          rw [FileTree.locate_eq_ok hl, hgrows.resolve, FileTree.resolve_join hname]
        rw [hfound] at hl
        refine ⟨hrest.grows.locate hl, ?_⟩
        rcases hrest.get?_cases (t.resolve dir ++ [name]) with heq | ⟨y, hy, hly, _⟩
        · rw [heq, FileTree.get?_write hw, FileTree.resolve_join hname, if_pos rfl]
          rfl
        · -- No other template goes to the same place.
          have hat := FileTree.locate_eq_ok hly
          rw [(hgrows.trans hrest.grows).resolve, FileTree.resolve_join (hnames y hy),
            List.append_cancel_left_eq, List.singleton_inj] at hat
          exact absurd (List.mem_map.mpr ⟨y, hy, hat.symm⟩) hnew
      · rw [← hgrows.resolve]
        exact ih hnames hdistinct rfl hx

end Written

theorem isName_of_mem_templates : ∀ x ∈ templates, Path.IsName x.1 := by
  intro x hx
  obtain rfl := List.mem_singleton.mp hx
  exact ⟨by decide, by decide, by decide, by decide⟩

theorem nodup_templates : (templates.map Prod.fst).Nodup := List.pairwise_singleton _ _

/-- What an export leaves alone, which templates it writes and lists, and which folders it makes. -/
structure Exported (dir : Path) (force : Bool) (t : FileTree) (r : Except SettingsError (List Path))
    (u : FileTree) : Prop where
  grows : t.Grows u
  /-- Files to which the path of no template leads are as they were, and there are no others. -/
  elsewhere : ∀ at_ content, (∀ x ∈ templates, u.locate (Path.join dir x.1) ≠ .ok at_) →
    (u.get? at_ = some (.file content) ↔ t.get? at_ = some (.file content))
  /-- Without being forced, an export replaces nothing. -/
  keeps : force = false → t.KeepsFiles u
  /-- Then it lists the templates that were missing once the folder was there. -/
  lists : force = false → ∀ paths, r = .ok paths → ∃ s,
    (Files.makeFolders (m := StateM FileTree) dir).run t = (.ok (), s) ∧
      paths = (templates.filter fun x => s.get? (t.resolve dir ++ [x.1]) = none).map fun x =>
        Path.join dir x.1
  /-- If it is forced, and succeeds, each template is in the folder in the end. -/
  holds : force = true → ∀ paths, r = .ok paths → ∀ x ∈ templates,
    u.locate (Path.join dir x.1) = .ok (t.resolve dir ++ [x.1]) ∧
      u.get? (t.resolve dir ++ [x.1]) = some (.ofText x.2)
  /-- New folders are those that the path itself, or a path above it, leads to. -/
  folders : t.FoldersTo u dir

theorem run_exportTemplates (dir : Path) (force : Bool) (t : FileTree) :
    (exportTemplates (m := StateM FileTree) dir force).run t =
      match (Files.makeFolders (m := StateM FileTree) dir).run t with
      | (.error e, s) => (.error (.noTemplateFolder dir e), s)
      | (.ok _, s) => (writeTemplates (m := StateM FileTree) dir force templates).run s := by
  rw [exportTemplates, StateT.run_bind]
  generalize (Files.makeFolders (m := StateM FileTree) dir).run t = made
  obtain ⟨made, s⟩ := made
  cases made with
  | error e => rfl
  | ok _ => rfl

theorem exported_exportTemplates (dir : Path) (force : Bool) (t : FileTree) :
    Exported dir force t ((exportTemplates (m := StateM FileTree) dir force).run t).1
      ((exportTemplates (m := StateM FileTree) dir force).run t).2 := by
  obtain ⟨hadds, hfolders⟩ := Files.makeFolders_adds dir t
  rw [run_exportTemplates]
  cases hmade : (Files.makeFolders (m := StateM FileTree) dir).run t with
  | mk made s =>
    rw [hmade] at hadds hfolders
    cases made with
    | error e =>
      exact {
        grows := hadds.grows
        elsewhere := fun at_ content _ => hadds.file_iff
        keeps := fun _ _ _ => hadds.file_iff.mpr
        lists := fun _ _ hr => (by cases hr)
        holds := fun _ _ hr => (by cases hr)
        folders := hfolders }
    | ok _ =>
      have hwritten := written_writeTemplates dir force templates s
      dsimp only
      generalize (writeTemplates (m := StateM FileTree) dir force templates).run s = ran at hwritten
      obtain ⟨r, u⟩ := ran
      have hcases := hwritten.get?_cases
      constructor
      case grows => exact hadds.grows.trans hwritten.grows
      case elsewhere =>
        intro at_ content hno
        rcases hcases at_ with heq | ⟨x, hx, hl, _⟩
        · rw [heq]
          exact hadds.file_iff
        · exact absurd hl (hno x hx)
      case keeps =>
        intro hforce at_ content hfile
        have hs := hadds.file_iff.mpr hfile
        rcases hcases at_ with heq | ⟨x, _, _, _, hnone⟩
        · rw [heq, hs]
        · cases hs.symm.trans (hnone hforce)
      case lists =>
        intro hforce paths hr
        have hpaths := hwritten.paths_eq isName_of_mem_templates nodup_templates hforce hr
        rw [hadds.grows.resolve] at hpaths
        exact ⟨s, hmade, hpaths⟩
      case holds =>
        intro hforce paths hr x hx
        have hholds := hwritten.holds isName_of_mem_templates nodup_templates hforce hr hx
        rwa [hadds.grows.resolve] at hholds
      case folders =>
        intro at_ hu
        rcases hcases at_ with heq | ⟨x, _, _, hfile, _⟩
        · rcases hfolders at_ (heq ▸ hu) with ht | ⟨hnone, q, hq, hl⟩
          · exact Or.inl ht
          · exact Or.inr ⟨hnone, q, hq, hwritten.grows.locate hl⟩
        · cases hfile.symm.trans hu

/-- If the path never goes up, the new folders are the one for the templates and those that it is in. -/
theorem Exported.folder_le (h : Exported dir force t r u) (hup : ['.', '.'] ∉ FileTree.partsOf dir)
    (hu : u.get? at_ = some .folder) : t.get? at_ = some .folder ∨ at_ <+: t.resolve dir := by
  rcases h.folders at_ hu with ht | ⟨_, q, hq, hl⟩
  · exact Or.inl ht
  · rw [FileTree.locate_eq_ok hl, h.grows.resolve]
    rcases hq with rfl | habove
    · exact Or.inr List.prefix_rfl
    · have hne : q ≠ [] := (FileTree.check_eq_ok_iff.mp (FileTree.locate_eq_ok_iff.mp hl).1).2.1
      exact Or.inr (t.resolve_prefix_of_above habove hne hup)

/-- A folder that the path leaves again is made as well. -/
example : ((exportTemplates (m := StateM FileTree) "new/../out".toList true).run ⟨[], []⟩).2.get?
    ["new".toList] = some .folder := by decide +kernel

/-- Here that folder stands where the template would be. -/
example : ((exportTemplates (m := StateM FileTree) "base.html/..".toList false).run ⟨[], []⟩).1 =
    .ok [] := by decide +kernel

end Starter

end LineMarkup
