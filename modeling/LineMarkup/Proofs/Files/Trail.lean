import LineMarkup.Proofs.Files.Events
import LineMarkup.Proofs.Files.Reading
import LineMarkup.Proofs.Path.Parent
import Mathlib.Data.List.Induction

/-!
Where a path leads, and what it passes on its way, by its text alone. Without links a tree can only refuse
to follow a path, so this is where the path leads in every tree. What a tree answers to a request
about a path depends on nothing but the entries on the way of that path, and on which locations are
folders.
-/

namespace LineMarkup

set_option autoImplicit false

/-- Goes on from a location by one part of a path, whatever is there. -/
def goOn (at_ : Location) (part : Text) : Location :=
  if part = ['.'] then at_ else if part = ['.', '.'] then at_.dropLast else at_ ++ [part]

/-- The locations that some parts lead to, one after the other. -/
def trailFrom : Location → List Text → List Location
  | _, [] => []
  | at_, part :: parts => goOn at_ part :: trailFrom (goOn at_ part) parts

namespace FileTree

/-- Where a path leads. -/
def resolve (t : FileTree) (p : Path) : Location := (partsOf p).foldl goOn (t.start p)

/-- The locations on the way of a path, with the one where it leads. -/
def trail (t : FileTree) (p : Path) : List Location := trailFrom (t.start p) (partsOf p)

end FileTree

section Trail
variable {at_ l : Location} {part : Text} {parts qs dots : List Text}

theorem trailFrom_append (at_ : Location) (ps qs : List Text) :
    trailFrom at_ (ps ++ qs) = trailFrom at_ ps ++ trailFrom (ps.foldl goOn at_) qs := by
  induction ps generalizing at_ with
  | nil => rfl
  | cons part ps ih => exact congrArg (goOn at_ part :: ·) (ih (goOn at_ part))

theorem mem_trailFrom_of_dropLast (hl : l ∈ trailFrom at_ parts.dropLast) : l ∈ trailFrom at_ parts := by
  cases parts using List.reverseRecOn with
  | nil => exact hl
  | append_singleton parts part =>
    rw [List.dropLast_concat] at hl
    rw [trailFrom_append]
    exact List.mem_append_left _ hl

theorem foldl_goOn_mem_trailFrom (at_ : Location) (h : parts ≠ []) :
    parts.foldl goOn at_ ∈ trailFrom at_ parts := by
  induction parts generalizing at_ with
  | nil => exact absurd rfl h
  | cons part parts ih =>
    cases parts with
    | nil => exact List.mem_singleton_self _
    | cons next parts => exact List.mem_cons_of_mem _ (ih (goOn at_ part) (List.cons_ne_nil _ _))

theorem foldl_goOn_onlyDots (at_ : Location) (h : Path.OnlyDots dots) : dots.foldl goOn at_ = at_ := by
  induction dots with
  | nil => rfl
  | cons dot dots ih =>
    obtain ⟨hdot, hdots⟩ := List.forall_mem_cons.mp h
    rw [List.foldl_cons, goOn, if_pos hdot]
    exact ih hdots

theorem eq_of_mem_trailFrom_onlyDots (h : Path.OnlyDots dots) (hl : l ∈ trailFrom at_ dots) : l = at_ := by
  induction dots with
  | nil => cases hl
  | cons dot dots ih =>
    obtain ⟨hdot, hdots⟩ := List.forall_mem_cons.mp h
    have hgo : goOn at_ dot = at_ := if_pos hdot
    rw [trailFrom, hgo] at hl
    rcases List.mem_cons.mp hl with hl | hl
    · exact hl
    · exact ih hdots hl

end Trail

namespace FileTree

variable {s t u : FileTree} {p q : Path} {at_ found l : Location} {part : Text} {parts : List Text}

theorem step_eq_ok (h : t.step at_ part = .ok found) :
    t.get? at_ = some .folder ∧ found = goOn at_ part := by
  unfold step at h
  split at h
  next => cases h
  next hfolder =>
    have hget : t.get? at_ = some .folder := isFolder_iff.mp (by simpa using hfolder)
    refine ⟨hget, ?_⟩
    unfold goOn
    split at h
    next hdot =>
      rw [if_pos hdot]
      exact (Except.ok.inj h).symm
    next hdot =>
      rw [if_neg hdot]
      split at h
      next hup =>
        rw [if_pos hup]
        exact (Except.ok.inj h).symm
      next hup =>
        rw [if_neg hup]
        split at h
        next => cases h
        next =>
          split at h
          next => exact (Except.ok.inj h).symm
          next => cases h

theorem walk_cons_eq_ok (h : t.walk at_ (part :: parts) = .ok found) :
    t.step at_ part = .ok (goOn at_ part) ∧ t.walk (goOn at_ part) parts = .ok found := by
  rw [walk, List.foldlM_cons] at h
  obtain ⟨next, hstep, hrest⟩ := exists_of_bind_eq_ok h
  obtain rfl := (step_eq_ok hstep).2
  exact ⟨hstep, hrest⟩

theorem walk_append_eq_ok {qs : List Text} (h : t.walk at_ (parts ++ qs) = .ok found) :
    t.walk at_ parts = .ok (parts.foldl goOn at_) ∧
      t.walk (parts.foldl goOn at_) qs = .ok found := by
  induction parts generalizing at_ with
  | nil => exact ⟨rfl, h⟩
  | cons part parts ih =>
    obtain ⟨hstep, hrest⟩ := walk_cons_eq_ok h
    obtain ⟨hparts, hqs⟩ := ih hrest
    refine ⟨?_, hqs⟩
    rw [walk, List.foldlM_cons, hstep]
    exact hparts

theorem walk_eq_ok (h : t.walk at_ parts = .ok found) : found = parts.foldl goOn at_ := by
  rw [← List.append_nil parts] at h
  obtain ⟨hparts, hnil⟩ := walk_append_eq_ok h
  exact (Except.ok.inj hnil).symm

theorem folder_of_mem_trailFrom (h : t.walk at_ parts = .ok found) (hf : t.get? found = some .folder)
    (hl : l ∈ trailFrom at_ parts) : t.get? l = some .folder := by
  induction parts generalizing at_ with
  | nil => cases hl
  | cons part parts ih =>
    obtain ⟨-, hrest⟩ := walk_cons_eq_ok h
    rcases List.mem_cons.mp hl with rfl | hl
    · cases parts with
      | nil => exact (Except.ok.inj hrest) ▸ hf
      | cons next parts => exact (step_eq_ok (walk_cons_eq_ok hrest).1).1
    · exact ih hrest hl

/-- A path that leads somewhere leads where its text says. -/
theorem locate_eq_ok (h : t.locate p = .ok found) : found = t.resolve p :=
  walk_eq_ok (locate_eq_ok_iff.mp h).2.1

theorem resolve_of_place {folder : Location} {name : Text} (h : t.place p = .ok (folder, some name)) :
    t.resolve p = folder ++ [name] ∧ partsOf p ≠ [] := by
  obtain ⟨_, hwalk, _, hparts, hdot, hup⟩ := place_eq_ok h
  rw [resolve, ← hparts, List.foldl_append, ← walk_eq_ok hwalk, List.foldl_cons, goOn, if_neg hdot,
    if_neg hup]
  exact ⟨rfl, by simp⟩

theorem get?_write {content : Content} (hw : t.write p content = .ok u) (at_ : Location) :
    u.get? at_ = if at_ = t.resolve p then some (.file content) else t.get? at_ := by
  obtain ⟨folder, name, hplace, _, _, _, rfl⟩ := place_of_write hw
  rw [(resolve_of_place hplace).1, get?_put _ _ _ (by simp)]

/-- What a write replaces stands at its path. -/
theorem kind?_of_write {content : Content} (hw : t.write p content = .ok u)
    (hthere : (t.get? (t.resolve p)).isSome = true) : (t.kind? p).isSome = true := by
  obtain ⟨folder, name, hplace, hslash, _, hlong, _⟩ := place_of_write hw
  rw [(resolve_of_place hplace).1] at hthere
  have hlocate := locate_of_place hplace (fun hs => absurd hs (by rw [hslash]; decide)) hlong
    (Grows.refl t) hthere
  obtain ⟨entry, hentry⟩ := Option.isSome_iff_exists.mp hthere
  rw [kind?, hlocate]
  dsimp only
  rw [hentry]
  cases entry with
  | folder => rfl
  | file => rfl

theorem kind?_eq_folder_iff :
    t.kind? p = some .folder ↔ ∃ at_, t.locate p = .ok at_ ∧ t.get? at_ = some .folder := by
  unfold kind?
  split
  next e hl => simp [hl]
  next found hl =>
    rw [hl]
    cases hget : t.get? found with
    | none => simp [hget]
    | some entry => cases entry <;> simp [hget]

theorem check_eq_ok_iff :
    check p = .ok () ↔ '\x00' ∉ p ∧ p ≠ [] ∧ byteCount p ≤ longestPath := by
  unfold check
  split
  next h => simp [List.contains_iff_mem.mp h]
  next h =>
    split
    next hp => simp [List.isEmpty_iff.mp hp]
    next hp =>
      split
      next hlong => simp [hlong]
      next hlong => simp_all

theorem check_congr {a b : Path} (hnul : '\x00' ∈ a ↔ '\x00' ∈ b) (hnil : a = [] ↔ b = [])
    (hlong : byteCount a ≤ longestPath ↔ byteCount b ≤ longestPath) : check a = check b := by
  have hn : a.contains '\x00' = b.contains '\x00' := by
    rw [Bool.eq_iff_iff, List.contains_iff_mem, List.contains_iff_mem]
    exact hnul
  have he : a.isEmpty = b.isEmpty := by
    rw [Bool.eq_iff_iff, List.isEmpty_iff, List.isEmpty_iff]
    exact hnil
  simp only [check, hn, he, ← Nat.not_le, hlong]

theorem read_congr {a b : Path} (h : t.locate a = t.locate b) : t.read a = t.read b := by
  rw [read, read, h]

theorem locate_congr {a b : Path} (hcheck : check a = check b)
    (hwalk : t.walk (t.start a) (partsOf a) = t.walk (t.start b) (partsOf b))
    (hslash : endsInSlash a = endsInSlash b) : t.locate a = t.locate b := by
  rw [locate, locate, hcheck, hwalk, hslash]

theorem byteCount_append (a b : Text) : byteCount (a ++ b) = byteCount a + byteCount b := by
  have hfrom : ∀ (b : Text) (n : Nat), b.foldl (fun n c => n + c.utf8Size) n = n + byteCount b := by
    intro b
    induction b with
    | nil => exact fun n => rfl
    | cons c b ih =>
      intro n
      rw [byteCount, List.foldl_cons, List.foldl_cons, ih, ih, Nat.zero_add, Nat.add_assoc]
  rw [byteCount, List.foldl_append]
  exact hfrom b (byteCount a)

theorem check_prefix_eq_ok (h : q <+: p) (hne : q ≠ []) (hp : check p = .ok ()) : check q = .ok () := by
  obtain ⟨hnul, _, hlong⟩ := check_eq_ok_iff.mp hp
  obtain ⟨rest, rfl⟩ := h
  rw [byteCount_append] at hlong
  exact check_eq_ok_iff.mpr ⟨fun hm => hnul (List.mem_append_left rest hm), hne, by omega⟩

theorem start_prefix_eq (t : FileTree) (h : q <+: p) (hne : q ≠ []) : t.start p = t.start q := by
  rw [start, start, Path.isAbsolute_prefix_eq h hne]

theorem folder_of_mem_trail (h : t.kind? p = some .folder) (hl : l ∈ t.trail p) :
    t.get? l = some .folder := by
  obtain ⟨at_, hlocate, hfolder⟩ := kind?_eq_folder_iff.mp h
  exact folder_of_mem_trailFrom (locate_eq_ok_iff.mp hlocate).2.1 hfolder hl

/-- The folder that a path is in is there, if the path names one. -/
def HasFolder (t : FileTree) (p : Path) : Prop :=
  ∀ folder, p.parent? = some folder → folder = [] ∨ t.kind? folder = some .folder

instance (t : FileTree) (p : Path) : Decidable (t.HasFolder p) :=
  inferInstanceAs (Decidable (∀ folder ∈ p.parent?, folder = [] ∨ t.kind? folder = some .folder))

theorem hasFolder_of_kind? (h : t.kind? p = some .folder) : t.HasFolder p := by
  intro q hq
  rcases Path.partsOf_parent hq with ⟨rfl, _⟩ | ⟨hpre, dots, last, dots', _, _, hparts, _⟩
  · exact Or.inl rfl
  · by_cases hne : q = []
    · exact Or.inl hne
    · obtain ⟨at_, hlocate, _⟩ := kind?_eq_folder_iff.mp h
      obtain ⟨hcheck, hwalk, _⟩ := locate_eq_ok_iff.mp hlocate
      rw [hparts, start_prefix_eq t hpre hne] at hwalk
      obtain ⟨hwalkq, hrest⟩ := walk_append_eq_ok hwalk
      -- Something comes after the parent, so it was gone through.
      have hfolder : t.get? ((partsOf q).foldl goOn (t.start q)) = some .folder := by
        cases dots with
        | nil => exact (step_eq_ok (walk_cons_eq_ok hrest).1).1
        | cons dot dots => exact (step_eq_ok (walk_cons_eq_ok hrest).1).1
      exact Or.inr (kind?_eq_folder_iff.mpr
        ⟨_, locate_eq_ok_iff.mpr ⟨check_prefix_eq_ok hpre hne hcheck, hwalkq, fun _ => hfolder⟩, hfolder⟩)

theorem HasFolder.of_above (h : t.HasFolder p) (ha : q.Above p) :
    q = [] ∨ t.kind? q = some .folder := by
  induction ha with
  | parent hq => exact h _ hq
  | step hq _ ih =>
    apply ih
    rcases h _ hq with rfl | hkind
    · intro r hr
      cases hr
    · exact hasFolder_of_kind? hkind

/-- On the way to a path whose folder is there, everything else is a folder. -/
theorem HasFolder.trail_cases (h : t.HasFolder p) (hl : l ∈ t.trail p) :
    t.get? l = some .folder ∨ l = t.resolve p := by
  have honly : Path.OnlyDots (partsOf p) → l = t.resolve p := fun hdots =>
    (eq_of_mem_trailFrom_onlyDots hdots hl).trans (foldl_goOn_onlyDots _ hdots).symm
  cases hq : p.parent? with
  | none => exact Or.inr (honly (Path.onlyDots_of_parent_eq_none hq))
  | some q =>
    rcases Path.partsOf_parent hq with ⟨rfl, hdots⟩ |
      ⟨hpre, dots, last, dots', hdots, hdots', hparts, hnone⟩
    · exact Or.inr (honly hdots)
    · have hend : t.resolve p = goOn ((partsOf q).foldl goOn (t.start p)) last := by
        rw [resolve, hparts, List.foldl_append, List.foldl_append, foldl_goOn_onlyDots _ hdots,
          List.foldl_cons, foldl_goOn_onlyDots _ hdots']
      rw [trail, hparts, trailFrom_append, trailFrom_append, foldl_goOn_onlyDots _ hdots, trailFrom,
        ← hend, ← List.append_assoc] at hl
      rcases List.mem_append.mp hl with hl | hl
      · by_cases hne : q = []
        · rw [hne, hnone hne, Path.partsOf_nil] at hl
          cases hl
        · have hkind : t.kind? q = some .folder := (h q hq).resolve_left hne
          rw [start_prefix_eq t hpre hne] at hl
          rcases List.mem_append.mp hl with hl | hl
          · exact Or.inl (folder_of_mem_trail hkind hl)
          · obtain ⟨at_, hlocate, hfolder⟩ := kind?_eq_folder_iff.mp hkind
            rw [locate_eq_ok hlocate] at hfolder
            exact Or.inl (eq_of_mem_trailFrom_onlyDots hdots hl ▸ hfolder)
      · rcases List.mem_cons.mp hl with hl | hl
        · exact Or.inr hl
        · exact Or.inr (eq_of_mem_trailFrom_onlyDots hdots' hl)

end FileTree

end LineMarkup
