import LineMarkup.Proofs.Files.Trail

/-!
Trees that answer a request alike. They have to have the same folders, and the same entries on the way of
the path that the request is about; what else is in them does not matter.
-/

namespace LineMarkup

set_option autoImplicit false

def Request.path : Request → Path
  | read p => p
  | write p _ => p
  | makeFolder p => p
  | kind? p => p

namespace FileTree

/-- Two trees with the same folders, and with the same entries at some locations. -/
structure AlikeOn (s t : FileTree) (ls : List Location) : Prop where
  here : s.here = t.here
  folder_iff : ∀ at_, s.get? at_ = some .folder ↔ t.get? at_ = some .folder
  get?_eq : ∀ at_ ∈ ls, s.get? at_ = t.get? at_

namespace AlikeOn

variable {s t : FileTree} {ls : List Location} {p : Path} {at_ : Location} {part : Text}
  {parts : List Text}

theorem isFolder (h : AlikeOn s t ls) (at_ : Location) : s.isFolder at_ = t.isFolder at_ :=
  decide_eq_decide.mpr (h.folder_iff at_)

theorem start (h : AlikeOn s t ls) (p : Path) : s.start p = t.start p := by
  rw [FileTree.start, FileTree.start, h.here]

theorem mono {ls' : List Location} (h : AlikeOn s t ls) (hsub : ∀ at_ ∈ ls', at_ ∈ ls) :
    AlikeOn s t ls' := ⟨h.here, h.folder_iff, fun at_ hat => h.get?_eq at_ (hsub at_ hat)⟩

theorem step (h : AlikeOn s t ls) (hgo : goOn at_ part ∈ ls) : s.step at_ part = t.step at_ part := by
  have hget := h.get?_eq _ hgo
  unfold FileTree.step
  rw [h.isFolder]
  by_cases hdot : part = ['.']
  · simp only [if_pos hdot]
  · by_cases hup : part = ['.', '.']
    · simp only [if_neg hdot, if_pos hup]
    · rw [goOn, if_neg hdot, if_neg hup] at hget
      rw [hget]

theorem walk (h : AlikeOn s t ls) (hsub : ∀ l ∈ trailFrom at_ parts, l ∈ ls) :
    s.walk at_ parts = t.walk at_ parts := by
  induction parts generalizing at_ with
  | nil => rfl
  | cons part parts ih =>
    obtain ⟨hgo, hsub⟩ := List.forall_mem_cons.mp hsub
    rw [FileTree.walk, FileTree.walk, List.foldlM_cons, List.foldlM_cons, h.step hgo]
    cases hstep : t.step at_ part with
    | error e => rfl
    | ok next =>
      obtain rfl := (step_eq_ok hstep).2
      exact ih hsub

variable (h : AlikeOn s t (t.trail p))
include h

theorem locate : s.locate p = t.locate p := by
  rw [FileTree.locate, FileTree.locate, h.start, h.walk fun _ hl => hl]
  simp only [h.isFolder]

theorem get?_of_locate (hl : t.locate p = .ok at_) : s.get? at_ = t.get? at_ := by
  obtain rfl := locate_eq_ok hl
  by_cases hparts : partsOf p = []
  · -- The path is the root, and that is a folder in every tree.
    have hne := (check_eq_ok_iff.mp (locate_eq_ok_iff.mp hl).1).2.1
    have habs := Path.isAbsolute_of_partsOf_eq_nil hparts hne
    rw [resolve, hparts, List.foldl_nil, FileTree.start, if_pos habs]
    rfl
  · exact h.get?_eq _ (foldl_goOn_mem_trailFrom _ hparts)

theorem read : s.read p = t.read p := by
  cases hl : t.locate p with
  | error e =>
    rw [FileTree.read, FileTree.read, h.locate, hl]
    rfl
  | ok at_ => rw [read_of_locate (h.locate.trans hl), read_of_locate hl, h.get?_of_locate hl]

theorem kind? : s.kind? p = t.kind? p := by
  rw [FileTree.kind?, FileTree.kind?, h.locate]
  cases hl : t.locate p with
  | error e => rfl
  | ok at_ =>
    dsimp only
    rw [h.get?_of_locate hl]

theorem place : s.place p = t.place p := by
  have hwalk : s.walk (t.start p) (partsOf p).dropLast = t.walk (t.start p) (partsOf p).dropLast :=
    h.walk fun l hl => mem_trailFrom_of_dropLast hl
  simp only [FileTree.place, h.start, hwalk, h.isFolder]

theorem write (content : Content) :
    (s.write p content).map (fun _ => ()) = (t.write p content).map fun _ => () := by
  rw [FileTree.write, FileTree.write, h.place]
  cases hp : t.place p with
  | error e => rfl
  | ok found =>
    obtain ⟨folder, name?⟩ := found
    cases name? with
    | none => rfl
    | some name =>
      show (if _ then _ else _ : Except FileError FileTree).map _ =
        (if _ then _ else _ : Except _ _).map _
      rw [h.isFolder]
      split
      next => rfl
      next =>
        split
        next => rfl
        next => rfl

theorem makeFolder :
    (s.makeFolder p).map (fun _ => ()) = (t.makeFolder p).map fun _ => () := by
  rw [FileTree.makeFolder, FileTree.makeFolder, h.place]
  cases hp : t.place p with
  | error e => rfl
  | ok found =>
    obtain ⟨folder, name?⟩ := found
    cases name? with
    | none => rfl
    | some name =>
      obtain ⟨hresolve, hparts⟩ := resolve_of_place hp
      have hget := h.get?_eq _ (foldl_goOn_mem_trailFrom (t.start p) hparts)
      rw [← resolve, hresolve] at hget
      show (if _ then _ else _ : Except FileError FileTree).map _ =
        (if _ then _ else _ : Except _ _).map _
      rw [hget]
      split
      next => rfl
      next =>
        split
        next => rfl
        next => rfl

end AlikeOn

theorem answer_commit (t : FileTree) (change : FileTree → Except FileError FileTree) :
    t.answer (commit change) = (change t).map fun _ => () := by
  rw [answer, run_commit]
  cases change t with
  | error e => rfl
  | ok next => rfl

/-- What a tree answers depends on the way of the path that the request is about. -/
theorem AlikeOn.answer_send {s t : FileTree} {r : Request} (h : AlikeOn s t (t.trail r.path)) :
    s.answer r.send = t.answer r.send := by
  cases r with
  | read p => exact h.read
  | kind? p => exact h.kind?
  | write p text =>
    have hs : ∀ t : FileTree, t.answer (Request.write p text).send =
        (t.write p (.text text)).map fun _ => () := fun t => answer_commit t _
    rw [hs, hs]
    exact h.write (.text text)
  | makeFolder p =>
    have hs : ∀ t : FileTree, t.answer (Request.makeFolder p).send =
        (t.makeFolder p).map fun _ => () := fun t => answer_commit t _
    rw [hs, hs]
    exact h.makeFolder

end FileTree

section
variable {t u : FileTree} {es : List Event} {e : Event} {p dir : Path} {text : Text} {at_ : Location}

theorem FileTree.Grows.resolve (h : FileTree.Grows t u) (p : Path) : u.resolve p = t.resolve p := by
  rw [FileTree.resolve, FileTree.resolve, h.start]

/-- Where a folder above a path leads, there was a folder before, if the path has its folder. -/
theorem FileTree.HasFolder.get?_of_above (h : t.HasFolder p) (ha : dir.Above p) (hg : t.Grows u)
    (hl : u.locate dir = .ok at_) : t.get? at_ = some .folder := by
  rcases h.of_above ha with rfl | hkind
  · cases hl
  · obtain ⟨found, hfound, hfolder⟩ := FileTree.kind?_eq_folder_iff.mp hkind
    cases (hg.locate hfound).symm.trans hl
    exact hfolder

/-- Folders are asked for only where they are already. -/
def AsksForFolders (t : FileTree) (e : Event) : Prop :=
  ∀ dir, e.request = .makeFolder dir → ∃ p, t.HasFolder p ∧ dir.Above p

/-- What asks for folders that are there, and writes nothing, leaves a tree as it is. -/
theorem Event.Happens.eq_of_idle (h : e.Happens t u) (hw : e.written? = none)
    (ha : AsksForFolders t e) : u = t := by
  have heffect := h.effect
  rw [hw] at heffect
  cases heffect with
  | same => rfl
  | @folder at_ hne hgrows hnone =>
    have hthere : (t.put at_ .folder).get? at_ = some .folder := by
      rw [FileTree.get?_put t _ _ hne, if_pos rfl]
    rcases h.folder_cases hthere with hfolder | ⟨_, dir, hdir, hl⟩
    · cases hnone.symm.trans hfolder
    · obtain ⟨p, hp, habove⟩ := ha dir hdir
      cases hnone.symm.trans (hp.get?_of_above habove hgrows hl)

namespace Answers

/-- If every answer is one that the tree gives, and none but the last changes it, it gives them all. -/
theorem exists_of_forall (h : ∀ e ∈ es, e.answer = t.answer e.request.send)
    (hidle : ∀ e ∈ es.dropLast, e.written? = none ∧ AsksForFolders t e) : ∃ u, Answers t es u := by
  induction es with
  | nil => exact ⟨t, .nil t⟩
  | cons e es ih =>
    obtain ⟨he, hes⟩ := List.forall_mem_cons.mp h
    have hhappens : e.Happens t ((e.request.send (m := StateM FileTree)).run t).2 :=
      Prod.ext he.symm rfl
    cases es with
    | nil => exact ⟨_, .cons hhappens (.nil _)⟩
    | cons e' es =>
      rw [List.dropLast_cons_cons, List.forall_mem_cons] at hidle
      obtain ⟨u, hu⟩ := ih hes hidle.2
      rw [hhappens.eq_of_idle hidle.1.1 hidle.1.2] at hhappens
      exact ⟨u, .cons hhappens hu⟩

variable (h : Answers t es u) (ha : ∀ e ∈ es, AsksForFolders t e)
include h ha

theorem folder_iff : u.get? at_ = some .folder ↔ t.get? at_ = some .folder := by
  constructor
  · intro hu
    rcases h.folder_cases hu with ht | ⟨_, e, dir, he, hdir, hl⟩
    · exact ht
    · obtain ⟨p, hp, habove⟩ := ha e he dir hdir
      exact hp.get?_of_above habove h.grows hl
  · exact h.grows.folder at_

theorem get?_of_not_written (hno : ∀ p text, (p, text) ∈ writes es → t.resolve p ≠ at_) :
    u.get? at_ = t.get? at_ := by
  by_cases hu : u.get? at_ = some .folder
  · rw [hu, (h.folder_iff ha).mp hu]
  · rw [h.get?_eq hu]
    cases hlast : lastWrite? u at_ (writes es) with
    | none => rfl
    | some text =>
      obtain ⟨p, hw, hl⟩ := mem_of_lastWrite? hlast
      exact absurd ((h.grows.resolve p).symm.trans (FileTree.locate_eq_ok hl).symm) (hno p text hw)

omit ha in
theorem get?_of_written (hw : (p, text) ∈ writes es)
    (hall : ∀ p' text', (p', text') ∈ writes es → t.resolve p' = t.resolve p → text' = text) :
    u.get? (t.resolve p) = some (.ofText text) := by
  obtain ⟨at_, hl, content, hfile⟩ := h.locate_of_mem_writes hw
  have hat : at_ = t.resolve p := (FileTree.locate_eq_ok hl).trans (h.grows.resolve p)
  obtain ⟨text', hlast⟩ := exists_lastWrite? hw hl
  obtain ⟨p', hw', hl'⟩ := mem_of_lastWrite? hlast
  have htext : text' = text := by
    refine hall p' text' hw' ?_
    rw [← h.grows.resolve p', ← FileTree.locate_eq_ok hl', hat]
  rw [← hat, h.get?_eq (by rw [hfile]; simp), hlast, htext]
  rfl

end Answers

end

end LineMarkup
