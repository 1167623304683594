import LineMarkup.Files.Tree
import LineMarkup.Proofs.Fallible

/-!
How a file tree changes. Nothing is ever taken away: folders stay folders and files stay files,
though what a file holds may be replaced. So a path that leads somewhere leads there from then on.
-/

namespace LineMarkup

set_option autoImplicit false

namespace FileTree

/-- `u` has what `t` has, where it has it, apart from the contents of files. -/
structure Grows (t u : FileTree) : Prop where
  here : u.here = t.here
  folder : ∀ at_, t.get? at_ = some .folder → u.get? at_ = some .folder
  file : ∀ at_ content, t.get? at_ = some (.file content) → ∃ d, u.get? at_ = some (.file d)

variable {t u v : FileTree} {at_ found : Location} {p : Path} {content : Content}

theorem isFolder_iff : t.isFolder at_ = true ↔ t.get? at_ = some .folder := decide_eq_true_iff

theorem locate_eq_ok_iff : t.locate p = .ok found ↔
    check p = .ok () ∧ t.walk (t.start p) (partsOf p) = .ok found ∧
      (endsInSlash p = true → t.get? found = some .folder) := by
  constructor
  · intro h
    obtain ⟨_, hcheck, h⟩ := exists_of_bind_eq_ok h
    obtain ⟨f, hwalk, h⟩ := exists_of_bind_eq_ok h
    split at h
    next => cases h
    next hslash =>
      obtain rfl := Except.ok.inj h
      refine ⟨hcheck, hwalk, fun hs => isFolder_iff.mp ?_⟩
      simpa [hs] using hslash
  · rintro ⟨hcheck, hwalk, hslash⟩
    have hl : t.locate p =
        if endsInSlash p && !t.isFolder found then .error .notADirectory else .ok found := by
      rw [locate, hcheck, hwalk]
      rfl
    rw [hl, if_neg]
    intro hn
    obtain ⟨hend, hfound⟩ := (Bool.and_eq_true _ _).mp hn
    rw [isFolder_iff.mpr (hslash hend)] at hfound
    cases hfound

theorem Grows.refl (t : FileTree) : Grows t t := ⟨rfl, fun _ h => h, fun _ d h => ⟨d, h⟩⟩

theorem Grows.trans (htu : Grows t u) (huv : Grows u v) : Grows t v := by
  refine ⟨huv.here.trans htu.here, fun at_ h => huv.folder at_ (htu.folder at_ h), ?_⟩
  intro at_ content h
  obtain ⟨d, hd⟩ := htu.file at_ content h
  exact huv.file at_ d hd

/-- Putting an entry is growth where there was nothing, or one of the same kind. -/
theorem grows_put {e : Entry} (h : at_ ≠ [])
    (hfolder : t.get? at_ = some .folder → e = .folder)
    (hfile : ∀ c, t.get? at_ = some (.file c) → ∃ d, e = .file d) : Grows t (t.put at_ e) := by
  refine ⟨rfl, ?_, ?_⟩
  · intro other ho
    rw [get?_put t other e h]
    split
    next heq => rw [hfolder (heq ▸ ho)]
    next => exact ho
  · intro other c ho
    rw [get?_put t other e h]
    split
    next heq =>
      obtain ⟨d, rfl⟩ := hfile c (heq ▸ ho)
      exact ⟨d, rfl⟩
    next => exact ⟨c, ho⟩

namespace Grows

variable (h : Grows t u)
include h

theorem isFolder (hf : t.isFolder at_ = true) : u.isFolder at_ = true :=
  decide_eq_true (h.folder at_ (of_decide_eq_true hf))

theorem isSome (hs : (t.get? at_).isSome = true) : (u.get? at_).isSome = true := by
  obtain ⟨e, he⟩ := Option.isSome_iff_exists.mp hs
  cases e with
  | folder =>
    rw [h.folder at_ he]
    rfl
  | file c =>
    obtain ⟨d, hd⟩ := h.file at_ c he
    rw [hd]
    rfl

theorem eq_none (hn : u.get? at_ = none) : t.get? at_ = none := by
  cases ht : t.get? at_ with
  | none => rfl
  | some e =>
    have hs := h.isSome (Option.isSome_iff_exists.mpr ⟨e, ht⟩)
    rw [hn] at hs
    cases hs

theorem step {part : Text} (hs : t.step at_ part = .ok found) : u.step at_ part = .ok found := by
  unfold FileTree.step at hs ⊢
  split at hs
  next => cases hs
  next hf =>
    rw [if_neg (by simpa using h.isFolder (by simpa using hf))]
    split at hs
    next hdot => rwa [if_pos hdot]
    next hdot =>
      rw [if_neg hdot]
      split at hs
      next hup => rwa [if_pos hup]
      next hup =>
        rw [if_neg hup]
        split at hs
        next => cases hs
        next hlong =>
          rw [if_neg hlong]
          split at hs
          next hthere => rwa [if_pos (h.isSome hthere)]
          next => cases hs

theorem walk {start : Location} {parts : List Text} (hw : t.walk start parts = .ok found) :
    u.walk start parts = .ok found := by
  induction parts generalizing start with
  | nil => exact hw
  | cons part parts ih =>
    rw [FileTree.walk, List.foldlM_cons] at hw ⊢
    obtain ⟨next, hnext, hrest⟩ := exists_of_bind_eq_ok hw
    rw [h.step hnext]
    exact ih hrest

theorem start (p : Path) : u.start p = t.start p := by rw [FileTree.start, FileTree.start, h.here]

theorem locate (hl : t.locate p = .ok found) : u.locate p = .ok found := by
  obtain ⟨hcheck, hwalk, hslash⟩ := locate_eq_ok_iff.mp hl
  rw [← h.start] at hwalk
  exact locate_eq_ok_iff.mpr ⟨hcheck, h.walk hwalk, fun hs => h.folder found (hslash hs)⟩

/-- If two trees differ in nothing but what their files hold, a path leads to the same place in both. -/
theorem locate_eq (h' : Grows u t) (p : Path) : u.locate p = t.locate p := by
  have hfolder : u.isFolder = t.isFolder :=
    funext fun _ => Bool.eq_iff_iff.mpr ⟨h'.isFolder, h.isFolder⟩
  have hstep : u.step = t.step := by
    funext at_ part
    have hthere : (u.get? (at_ ++ [part])).isSome = (t.get? (at_ ++ [part])).isSome :=
      Bool.eq_iff_iff.mpr ⟨h'.isSome, h.isSome⟩
    rw [FileTree.step, FileTree.step, hfolder, hthere]
  have hwalk : u.walk = t.walk := by
    funext start parts
    rw [FileTree.walk, FileTree.walk, hstep]
  rw [FileTree.locate, FileTree.locate, hwalk, h.start, hfolder]

end Grows

theorem walk_append_of_ok {at_ f : Location} {ps qs : List Text} (h : t.walk at_ ps = .ok f) :
    t.walk at_ (ps ++ qs) = t.walk f qs := by
  have hps : ps.foldlM t.step at_ = .ok f := h
  rw [walk, List.foldlM_append, hps]
  rfl

theorem place_eq_ok {folder : Location} {name : Text} (h : t.place p = .ok (folder, some name)) :
    check p = .ok () ∧ t.walk (t.start p) (partsOf p).dropLast = .ok folder ∧
      t.get? folder = some .folder ∧ (partsOf p).dropLast ++ [name] = partsOf p ∧
      name ≠ ['.'] ∧ name ≠ ['.', '.'] := by
  obtain ⟨_, hcheck, h⟩ := exists_of_bind_eq_ok h
  obtain ⟨f, hwalk, h⟩ := exists_of_bind_eq_ok h
  split at h
  next => cases h
  next hfolder =>
    split at h
    next => cases h
    next last hlast =>
      obtain ⟨rfl, hname⟩ := (Prod.mk.injEq _ _ _ _).mp (Except.ok.inj h)
      split at hname
      next => cases hname
      next hdots =>
        obtain rfl := Option.some.inj hname
        simp only [Bool.or_eq_true, decide_eq_true_eq, not_or] at hdots
        exact ⟨hcheck, hwalk, isFolder_iff.mp (by simpa using hfolder),
          List.dropLast_append_getLast? last hlast, hdots⟩

/-- Where a path puts something, it leads once that is there. -/
theorem locate_of_place {folder : Location} {name : Text} (hp : t.place p = .ok (folder, some name))
    (hslash : endsInSlash p = true → u.get? (folder ++ [name]) = some .folder)
    (hlong : isTooLong name = false) (h : Grows t u)
    (hs : (u.get? (folder ++ [name])).isSome = true) : u.locate p = .ok (folder ++ [name]) := by
  obtain ⟨hcheck, hwalk, hfolder, hparts, hdot, hup⟩ := place_eq_ok hp
  have hstep : u.step folder name = .ok (folder ++ [name]) := by
    have hf : u.isFolder folder = true := isFolder_iff.mpr (h.folder folder hfolder)
    simp [FileTree.step, hf, hdot, hup, hlong, hs]
  have hw : u.walk (u.start p) (partsOf p) = .ok (folder ++ [name]) := by
    rw [← hparts, h.start, walk_append_of_ok (h.walk hwalk), FileTree.walk, List.foldlM_cons, hstep]
    rfl
  exact locate_eq_ok_iff.mpr ⟨hcheck, hw, hslash⟩

theorem read_of_locate (hl : t.locate p = .ok at_) :
    t.read p = match t.get? at_ with
      | some (.file content) => .ok content
      | some .folder => .error .isADirectory
      | none => .error .notFound := by
  rw [read, hl]
  rfl

theorem read_eq_ok_iff :
    t.read p = .ok content ↔ ∃ at_, t.locate p = .ok at_ ∧ t.get? at_ = some (.file content) := by
  constructor
  · intro h
    obtain ⟨at_, hl, h⟩ := exists_of_bind_eq_ok h
    refine ⟨at_, hl, ?_⟩
    split at h
    next c hget => rw [hget, Except.ok.inj h]
    next => cases h
    next => cases h
  · rintro ⟨at_, hl, hget⟩
    rw [read_of_locate hl, hget]

theorem ne_nil_of_file (h : t.get? at_ = some (.file content)) : at_ ≠ [] := by
  rintro rfl
  cases h

/-- What a file holds does not matter to where paths lead. -/
theorem locate_put_file (hfile : t.get? at_ = some (.file content)) (other : Content) (p : Path) :
    (t.put at_ (.file other)).locate p = t.locate p := by
  have hne := ne_nil_of_file hfile
  have hthere : Grows t (t.put at_ (.file other)) :=
    grows_put hne (fun hf => by cases hf.symm.trans hfile) fun _ _ => ⟨other, rfl⟩
  refine hthere.locate_eq ⟨rfl, fun l hl => ?_, fun l d hl => ?_⟩ p
  · rw [get?_put t l _ hne] at hl
    split at hl
    next => cases hl
    next => exact hl
  · rw [get?_put t l _ hne] at hl
    split at hl
    next hla => exact ⟨content, hla ▸ hfile⟩
    next => exact ⟨d, hl⟩

theorem read_put_file (hfile : t.get? at_ = some (.file content)) (hp : t.locate p ≠ .ok at_)
    (other : Content) : (t.put at_ (.file other)).read p = t.read p := by
  have hlocate := locate_put_file hfile other p
  cases hl : t.locate p with
  | error e =>
    rw [read, read, hlocate, hl]
    rfl
  | ok l =>
    have hla : l ≠ at_ := by
      rintro rfl
      exact hp hl
    rw [read_of_locate (hlocate.trans hl), read_of_locate hl, get?_put t l _ (ne_nil_of_file hfile),
      if_neg hla]

theorem place_of_write (hw : t.write p content = .ok u) : ∃ folder name,
    t.place p = .ok (folder, some name) ∧ endsInSlash p = false ∧
      t.isFolder (folder ++ [name]) = false ∧ isTooLong name = false ∧
      u = t.put (folder ++ [name]) (.file content) := by
  obtain ⟨place, hplace, hw⟩ := exists_of_bind_eq_ok hw
  split at hw
  next => cases hw
  next folder name =>
    split at hw
    next => cases hw
    next hno =>
      split at hw
      next => cases hw
      next hlong =>
        simp only [Bool.or_eq_true, not_or, Bool.not_eq_true] at hno hlong
        exact ⟨folder, name, hplace, hno.1, hno.2, hlong, (Except.ok.inj hw).symm⟩

/-- Writing puts a file, and nothing else, where the path leads from then on. -/
theorem write_eq_ok (hw : t.write p content = .ok u) :
    ∃ at_, at_ ≠ [] ∧ u = t.put at_ (.file content) ∧ Grows t u ∧ u.locate p = .ok at_ := by
  obtain ⟨folder, name, hplace, hslash, hno, hlong, hu⟩ := place_of_write hw
  have hne : folder ++ [name] ≠ [] := by simp
  have hgrows : Grows t u := by
    rw [hu]
    refine grows_put hne ?_ fun _ _ => ⟨content, rfl⟩
    intro hf
    exact absurd (isFolder_iff.mpr hf) (by rw [hno]; decide)
  refine ⟨folder ++ [name], hne, hu, hgrows,
    locate_of_place hplace (fun hs => absurd hs (by rw [hslash]; decide)) hlong hgrows ?_⟩
  rw [hu, get?_put t _ _ hne, if_pos rfl]
  rfl

theorem read_of_write (hw : t.write p content = .ok u) : u.read p = .ok content := by
  obtain ⟨at_, hne, rfl, _, hl⟩ := write_eq_ok hw
  exact read_eq_ok_iff.mpr ⟨at_, hl, by rw [get?_put t _ _ hne, if_pos rfl]⟩

/-- Making a folder puts it where there was nothing, and the path leads there from then on. -/
theorem makeFolder_eq_ok (hm : t.makeFolder p = .ok u) :
    ∃ at_, at_ ≠ [] ∧ u = t.put at_ .folder ∧ Grows t u ∧ t.get? at_ = none ∧ u.locate p = .ok at_ := by
  obtain ⟨place, hplace, hm⟩ := exists_of_bind_eq_ok hm
  split at hm
  next => cases hm
  next folder name =>
    split at hm
    next => cases hm
    next hnone =>
      split at hm
      next => cases hm
      next hlong =>
        have hu : t.put (folder ++ [name]) .folder = u := Except.ok.inj hm
        have hne : folder ++ [name] ≠ [] := by simp
        have hget : t.get? (folder ++ [name]) = none := by simpa using hnone
        have hgrows : Grows t u := by
          rw [← hu]
          exact grows_put hne (fun _ => rfl) fun c hc => absurd (hget.symm.trans hc) (by simp)
        have hthere : u.get? (folder ++ [name]) = some .folder := by
          rw [← hu, get?_put t _ _ hne, if_pos rfl]
        refine ⟨folder ++ [name], hne, hu.symm, hgrows, hget,
          locate_of_place hplace (fun _ => hthere) (by simpa using hlong) hgrows ?_⟩
        rw [hthere]
        rfl

end FileTree

end LineMarkup
