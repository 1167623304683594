import LineMarkup.Proofs.Files.Growth

/-!
Requests to a file system with the answers to them, and what a series of them makes of a tree. A file
that was written holds what was written last; one that was not holds what it held before.
-/

namespace LineMarkup

set_option autoImplicit false

inductive Request where
  | read (p : Path)
  | write (p : Path) (text : Text)
  | makeFolder (p : Path)
  | kind? (p : Path)
deriving DecidableEq

namespace Request

abbrev Answer : Request → Type
  | read _ => Except FileError Content
  | write _ _ => Except FileError Unit
  | makeFolder _ => Except FileError Unit
  | kind? _ => Option FileKind

def send {m : Type → Type} [Files m] : (r : Request) → m r.Answer
  | read p => Files.read p
  | write p text => Files.write p text
  | makeFolder p => Files.makeFolder p
  | kind? p => Files.kind? p

end Request

/-- A request with the answer to it. -/
structure Event where
  request : Request
  answer : request.Answer

namespace Event

/-- The tree `t` gives this answer and is `u` from then on. -/
def Happens (e : Event) (t u : FileTree) : Prop :=
  (e.request.send (m := StateM FileTree)).run t = (e.answer, u)

/-- The path and the text of a write that succeeded. -/
def written? : Event → Option (Path × Text)
  | ⟨.write p text, .ok _⟩ => some (p, text)
  | _ => none

end Event

/-- What was written, in order. -/
def writes (es : List Event) : List (Path × Text) := es.filterMap Event.written?

/-- A tree gives the answers of a series of requests, one after the other, and ends up as another. -/
inductive Answers : FileTree → List Event → FileTree → Prop where
  | nil (t : FileTree) : Answers t [] t
  | cons {t s u : FileTree} {e : Event} {es : List Event} :
      e.Happens t s → Answers s es u → Answers t (e :: es) u

/-- The text of the last of some writes to a location, by where their paths lead in a tree. -/
def lastWrite? (u : FileTree) (at_ : Location) (ws : List (Path × Text)) : Option Text :=
  (ws.filter fun w => u.locate w.1 = .ok at_).getLast?.map (·.2)

def Entry.ofText (text : Text) : Entry := .file (.text text)

variable {t s u : FileTree} {e : Event} {es es' : List Event} {at_ : Location}

theorem writes_append (es es' : List Event) : writes (es ++ es') = writes es ++ writes es' :=
  List.filterMap_append

theorem writes_eq_nil (h : ∀ e ∈ es, ∀ p text, e.request ≠ .write p text) : writes es = [] := by
  rw [writes, List.filterMap_eq_nil_iff]
  rintro ⟨request, answer⟩ he
  cases request with
  | write p text => exact absurd rfl (h _ he p text)
  | _ => rfl

theorem lastWrite?_append (u : FileTree) (at_ : Location) (ws ws' : List (Path × Text)) :
    lastWrite? u at_ (ws ++ ws') = (lastWrite? u at_ ws').or (lastWrite? u at_ ws) := by
  rw [lastWrite?, List.filter_append, List.getLast?_append, Option.map_or]
  rfl

theorem mem_of_lastWrite? {ws : List (Path × Text)} {text : Text}
    (h : lastWrite? u at_ ws = some text) : ∃ p, (p, text) ∈ ws ∧ u.locate p = .ok at_ := by
  obtain ⟨⟨p, text'⟩, hlast, rfl⟩ := Option.map_eq_some_iff.mp h
  have hmem := List.mem_filter.mp (List.mem_of_getLast? hlast)
  exact ⟨p, hmem.1, of_decide_eq_true hmem.2⟩

theorem exists_lastWrite? {ws : List (Path × Text)} {p : Path} {text : Text}
    (h : (p, text) ∈ ws) (hp : u.locate p = .ok at_) : ∃ text', lastWrite? u at_ ws = some text' := by
  have hmem : (p, text) ∈ ws.filter fun w => u.locate w.1 = .ok at_ :=
    List.mem_filter.mpr ⟨h, decide_eq_true hp⟩
  rw [lastWrite?, List.getLast?_eq_some_getLast (List.ne_nil_of_mem hmem)]
  exact ⟨_, rfl⟩

namespace FileTree

theorem run_commit (change : FileTree → Except FileError FileTree) (t : FileTree) :
    (commit change).run t = match change t with
      | .ok next => (.ok (), next)
      | .error e => (.error e, t) := rfl

/-- A change of the tree is taken over if it can be made. -/
theorem commit_cases {change : FileTree → Except FileError FileTree} {a : Except FileError Unit}
    (h : (commit change).run t = (a, u)) :
    (∃ e, a = .error e ∧ u = t) ∨ (a = .ok () ∧ change t = .ok u) := by
  rw [run_commit] at h
  cases hc : change t with
  | error e =>
    rw [hc] at h
    cases h
    exact Or.inl ⟨e, rfl, rfl⟩
  | ok next =>
    rw [hc] at h
    cases h
    exact Or.inr ⟨rfl, rfl⟩

end FileTree

/-- What an answer makes of a tree, by what was written: nothing changes, or the file that was written
is put where its path leads, or a folder where there was nothing. -/
inductive Effect (t : FileTree) : Option (Path × Text) → FileTree → Prop where
  | same : Effect t none t
  | file {p : Path} {text : Text} {at_ : Location} : at_ ≠ [] → t.Grows (t.put at_ (.ofText text)) →
      (t.put at_ (.ofText text)).locate p = .ok at_ →
      Effect t (some (p, text)) (t.put at_ (.ofText text))
  | folder {at_ : Location} : at_ ≠ [] → t.Grows (t.put at_ .folder) → t.get? at_ = none →
      Effect t none (t.put at_ .folder)

theorem Effect.grows {written : Option (Path × Text)} (h : Effect t written u) : t.Grows u := by
  cases h with
  | same => exact FileTree.Grows.refl t
  | file _ hgrows _ => exact hgrows
  | folder _ hgrows _ => exact hgrows

namespace Event.Happens

theorem effect (h : e.Happens t u) : Effect t e.written? u := by
  obtain ⟨request, answer⟩ := e
  cases request with
  | read p =>
    cases h
    exact .same
  | kind? p =>
    cases h
    exact .same
  | write p text =>
    rcases FileTree.commit_cases h with ⟨e, rfl, rfl⟩ | ⟨rfl, hw⟩
    · exact .same
    · obtain ⟨at_, hne, rfl, hgrows, hl⟩ := FileTree.write_eq_ok hw
      exact .file hne hgrows hl
  | makeFolder p =>
    rcases FileTree.commit_cases h with ⟨e, rfl, rfl⟩ | ⟨rfl, hm⟩
    · exact .same
    · obtain ⟨at_, hne, rfl, hgrows, hnone, _⟩ := FileTree.makeFolder_eq_ok hm
      exact .folder hne hgrows hnone

theorem grows (h : e.Happens t u) : t.Grows u := h.effect.grows

/-- One request changes no file but the one that it writes. -/
theorem get?_eq (h : e.Happens t s) (hgrows : s.Grows u) (hu : u.get? at_ ≠ some .folder) :
    s.get? at_ = ((lastWrite? u at_ (writes [e])).map .ofText).or (t.get? at_) := by
  have heffect := h.effect
  have hws : writes [e] = e.written?.toList := by
    cases hw : e.written? with
    | none => exact List.filterMap_cons_none hw
    | some w => exact List.filterMap_cons_some hw
  rw [hws]
  generalize e.written? = written at heffect
  cases heffect with
  | same => rfl
  | @file p text found hne _ hl =>
    have hlu : u.locate p = .ok found := hgrows.locate hl
    rw [FileTree.get?_put t _ _ hne, lastWrite?, Option.toList_some, List.filter_singleton, hlu]
    by_cases hat : at_ = found
    · rw [if_pos hat, hat]
      simp
    · rw [if_neg hat]
      simp [Ne.symm hat]
  | @folder found hne _ _ =>
    -- The location is no folder in the end, so it is not the one of the new folder.
    have hat : at_ ≠ found := by
      rintro rfl
      exact hu (hgrows.folder at_ (by rw [FileTree.get?_put t _ _ hne, if_pos rfl]))
    rw [FileTree.get?_put t _ _ hne, if_neg hat]
    rfl

/-- A folder was there, or it has just been made. -/
theorem folder_cases (h : e.Happens t s) (hs : s.get? at_ = some .folder) :
    t.get? at_ = some .folder ∨
      t.get? at_ = none ∧ ∃ p, e.request = .makeFolder p ∧ s.locate p = .ok at_ := by
  obtain ⟨request, answer⟩ := e
  cases request with
  | read p =>
    cases h
    exact Or.inl hs
  | kind? p =>
    cases h
    exact Or.inl hs
  | write p text =>
    rcases FileTree.commit_cases h with ⟨e, rfl, rfl⟩ | ⟨rfl, hw⟩
    · exact Or.inl hs
    · obtain ⟨found, hne, rfl, _, _⟩ := FileTree.write_eq_ok hw
      rw [FileTree.get?_put t _ _ hne] at hs
      split at hs
      next => cases hs
      next => exact Or.inl hs
  | makeFolder p =>
    rcases FileTree.commit_cases h with ⟨e, rfl, rfl⟩ | ⟨rfl, hm⟩
    · exact Or.inl hs
    · obtain ⟨found, hne, rfl, _, hnone, hl⟩ := FileTree.makeFolder_eq_ok hm
      rw [FileTree.get?_put t _ _ hne] at hs
      split at hs
      next heq =>
        subst heq
        exact Or.inr ⟨hnone, p, rfl, hl⟩
      next => exact Or.inl hs

end Event.Happens

namespace Answers

theorem append (h : Answers t es s) (h' : Answers s es' u) : Answers t (es ++ es') u := by
  induction h with
  | nil => exact h'
  | cons he _ ih => exact .cons he (ih h')

theorem split (h : Answers t (es ++ es') u) : ∃ s, Answers t es s ∧ Answers s es' u := by
  induction es generalizing t with
  | nil => exact ⟨t, .nil t, h⟩
  | cons e es ih =>
    cases h with
    | cons he h =>
      obtain ⟨s, hs, hu⟩ := ih h
      exact ⟨s, .cons he hs, hu⟩

theorem grows (h : Answers t es u) : t.Grows u := by
  induction h with
  | nil t => exact FileTree.Grows.refl t
  | cons he _ ih => exact he.grows.trans ih

/-- A file holds what was last written to it, or else what it held at the start. -/
theorem get?_eq (h : Answers t es u) (hu : u.get? at_ ≠ some .folder) :
    u.get? at_ = ((lastWrite? u at_ (writes es)).map .ofText).or (t.get? at_) := by
  -- All paths are read in the tree at the end, so the induction goes from the first request on.
  induction h with
  | nil => rfl
  | @cons t s u e es he hrest ih =>
    have hsplit : writes (e :: es) = writes [e] ++ writes es := writes_append [e] es
    rw [ih hu, he.get?_eq hrest.grows hu, hsplit, lastWrite?_append, Option.map_or,
      Option.or_assoc]

/-- A folder was there at the start, or it was asked for. -/
theorem folder_cases (h : Answers t es u) (hu : u.get? at_ = some .folder) :
    t.get? at_ = some .folder ∨
      t.get? at_ = none ∧ ∃ e p, e ∈ es ∧ e.request = .makeFolder p ∧ u.locate p = .ok at_ := by
  induction h with
  | nil => exact Or.inl hu
  | @cons t s u e es he hrest ih =>
    rcases ih hu with hs | ⟨hnone, e', p, hmem, hp, hl⟩
    · rcases he.folder_cases hs with ht | ⟨hnone, p, hp, hl⟩
      · exact Or.inl ht
      · exact Or.inr ⟨hnone, e, p, List.mem_cons_self, hp, hrest.grows.locate hl⟩
    · exact Or.inr ⟨he.grows.eq_none hnone, e', p, List.mem_cons_of_mem e hmem, hp, hl⟩

/-- What was answered was answered by some tree in between. -/
theorem exists_happens (h : Answers t es u) (he : e ∈ es) : ∃ s s', e.Happens s s' ∧ s'.Grows u := by
  induction h with
  | nil => cases he
  | @cons t s u e' es hhead hrest ih =>
    rcases List.mem_cons.mp he with rfl | he
    · exact ⟨t, s, hhead, hrest.grows⟩
    · exact ih he

/-- Where a write succeeded, there is a file from then on. -/
theorem locate_of_mem_writes (h : Answers t es u) {p : Path} {text : Text}
    (hw : (p, text) ∈ writes es) :
    ∃ at_, u.locate p = .ok at_ ∧ ∃ content, u.get? at_ = some (.file content) := by
  obtain ⟨e, he, hwritten⟩ := List.mem_filterMap.mp hw
  obtain ⟨s, s', hhappens, hgrows⟩ := h.exists_happens he
  have heffect := hhappens.effect
  rw [hwritten] at heffect
  cases heffect with
  | @file p text at_ hne _ hl =>
    refine ⟨at_, hgrows.locate hl, hgrows.file at_ (.text text) ?_⟩
    rw [FileTree.get?_put s _ _ hne, if_pos rfl]
    rfl

/-- Where something was read, there is a file from then on. -/
theorem locate_of_mem_read (h : Answers t es u) {p : Path} {content : Content}
    (hr : ⟨.read p, .ok content⟩ ∈ es) :
    ∃ at_, u.locate p = .ok at_ ∧ ∃ content, u.get? at_ = some (.file content) := by
  obtain ⟨s, s', hhappens, hgrows⟩ := h.exists_happens hr
  have hread : s.read p = .ok content ∧ s = s' := by
    simpa using (Prod.mk.injEq _ _ _ _).mp hhappens
  obtain ⟨at_, hl, hget⟩ := FileTree.read_eq_ok_iff.mp hread.1
  rw [hread.2] at hl hget
  exact ⟨at_, hgrows.locate hl, hgrows.file at_ content hget⟩

end Answers

namespace FileTree

/-- Every file of `t` is one of `u`, and holds the same. -/
def KeepsFiles (t u : FileTree) : Prop :=
  ∀ at_ content, t.get? at_ = some (.file content) → u.get? at_ = some (.file content)

/-- `u` is `t` with some new folders, if any. -/
structure AddsFolders (t u : FileTree) : Prop where
  grows : t.Grows u
  get?_cases : ∀ at_, u.get? at_ = t.get? at_ ∨ t.get? at_ = none ∧ u.get? at_ = some .folder

theorem AddsFolders.refl (t : FileTree) : AddsFolders t t := ⟨.refl t, fun _ => Or.inl rfl⟩

theorem AddsFolders.file_iff {t u : FileTree} {at_ : Location} {content : Content}
    (h : AddsFolders t u) : u.get? at_ = some (.file content) ↔ t.get? at_ = some (.file content) := by
  rcases h.get?_cases at_ with heq | ⟨hnone, hfolder⟩
  · rw [heq]
  · simp [hnone, hfolder]

end FileTree

theorem Answers.addsFolders (h : Answers t es u) (hw : writes es = []) : t.AddsFolders u := by
  refine ⟨h.grows, fun at_ => ?_⟩
  by_cases hu : u.get? at_ = some .folder
  · rcases h.folder_cases hu with ht | ⟨hnone, _⟩
    · exact Or.inl (hu.trans ht.symm)
    · exact Or.inr ⟨hnone, hu⟩
  · refine Or.inl ?_
    rw [h.get?_eq hu, hw]
    rfl

end LineMarkup
