import LineMarkup.Files.Tree

/-!
Programs that only look at a file tree. What they find out depends on the tree, which stays as it is, so
the rest of a program goes on from the same tree.
-/

namespace LineMarkup

set_option autoImplicit false

variable {α β : Type}

def ReadsOnly (x : StateM FileTree α) : Prop := ∀ t, (x.run t).2 = t

/-- What a program finds out about a tree. -/
def FileTree.answer (t : FileTree) (x : StateM FileTree α) : α := (x.run t).1

/-- A program with other words for what goes wrong. -/
def relabel {m : Type → Type} [Monad m] {ε δ : Type} (f : ε → δ) (x : m (Except ε α)) :
    m (Except δ α) := do
  match ← x with
  | .ok a => pure (.ok a)
  | .error e => pure (.error (f e))

theorem bind_eq_relabel {m : Type → Type} [Monad m] {ε δ : Type} {f : ε → δ} {x : m (Except ε α)}
    {g : Except ε α → m (Except δ α)} (hok : ∀ a, g (.ok a) = pure (.ok a))
    (herror : ∀ e, g (.error e) = pure (.error (f e))) : x >>= g = relabel f x := by
  unfold relabel
  congr 1
  funext answer
  cases answer with
  | error e => exact herror e
  | ok a => exact hok a

namespace ReadsOnly

variable {x : StateM FileTree α} {f : α → StateM FileTree β}

theorem pure (a : α) : ReadsOnly (pure a) := fun _ => rfl

theorem bind (hx : ReadsOnly x) (hf : ∀ a, ReadsOnly (f a)) : ReadsOnly (x >>= f) := by
  intro t
  have h := hf (x.run t).1 (x.run t).2
  rw [hx t] at h
  exact (congrArg (fun s => ((f (x.run t).1).run s).2) (hx t)).trans h

theorem ite {c : Prop} [Decidable c] {y : StateM FileTree α} (hx : ReadsOnly x) (hy : ReadsOnly y) :
    ReadsOnly (if c then x else y) := by
  split
  next => exact hx
  next => exact hy

theorem run_eq (hx : ReadsOnly x) (t : FileTree) : x.run t = (t.answer x, t) :=
  Prod.ext rfl (hx t)

theorem run_bind (hx : ReadsOnly x) (t : FileTree) : (x >>= f).run t = (f (t.answer x)).run t := by
  rw [StateT.run_bind, hx.run_eq t]
  rfl

theorem answer_bind (hx : ReadsOnly x) (t : FileTree) : t.answer (x >>= f) = t.answer (f (t.answer x)) :=
  congrArg Prod.fst (hx.run_bind t)

/-- Two trees answer a program alike if they answer its first step alike, and the rest with what the
first step has found out. -/
theorem answer_bind_congr (hx : ReadsOnly x) {t u : FileTree} (h : u.answer x = t.answer x)
    (hf : u.answer (f (t.answer x)) = t.answer (f (t.answer x))) :
    u.answer (x >>= f) = t.answer (x >>= f) := by
  rw [hx.answer_bind, hx.answer_bind, h, hf]

section
variable {ε δ : Type} {f : ε → δ} {x : StateM FileTree (Except ε α)}

theorem relabel (hx : ReadsOnly x) : ReadsOnly (relabel f x) := by
  refine hx.bind fun answer => ?_
  cases answer with
  | error e => exact .pure _
  | ok a => exact .pure _

theorem answer_relabel_congr (hx : ReadsOnly x) {t u : FileTree} (h : u.answer x = t.answer x) :
    u.answer (LineMarkup.relabel f x) = t.answer (LineMarkup.relabel f x) := by
  refine hx.answer_bind_congr h ?_
  cases t.answer x with
  | error e => rfl
  | ok a => rfl

theorem answer_relabel_eq_ok_iff (hx : ReadsOnly x) {t : FileTree} {a : α} :
    t.answer (LineMarkup.relabel f x) = .ok a ↔ t.answer x = .ok a := by
  rw [LineMarkup.relabel, hx.answer_bind]
  cases t.answer x with
  | error e => exact ⟨fun h => (by cases h), fun h => (by cases h)⟩
  | ok b => exact ⟨fun h => congrArg _ (Except.ok.inj h), fun h => congrArg _ (Except.ok.inj h)⟩

end

end ReadsOnly

namespace Files

theorem readsOnly_read (p : Path) : ReadsOnly (read p) := fun _ => rfl

theorem readsOnly_kind? (p : Path) : ReadsOnly (kind? p) := fun _ => rfl

theorem readsOnly_readText (p : Path) : ReadsOnly (readText p) := by
  refine (readsOnly_read p).bind fun answer => ?_
  cases answer with
  | error e => exact .pure _
  | ok content => exact .pure _

theorem readsOnly_isThere (p : Path) : ReadsOnly (isThere p) :=
  (readsOnly_kind? p).bind fun _ => .pure _

theorem readsOnly_firstThere? (ps : List Path) : ReadsOnly (firstThere? ps) := by
  induction ps with
  | nil => exact .pure _
  | cons p ps ih => exact (readsOnly_isThere p).bind fun _ => .ite (.pure _) ih

theorem answer_readText (t : FileTree) (p : Path) :
    t.answer (readText p) = (t.read p).bind Content.text? := by
  have hread : t.answer (read p) = t.read p := rfl
  rw [readText, (readsOnly_read p).answer_bind, hread]
  cases t.read p with
  | error e => rfl
  | ok content => rfl

theorem answer_readText_eq_ok_iff {t : FileTree} {p : Path} {text : Text} :
    t.answer (readText p) = .ok text ↔ t.read p = .ok (.text text) := by
  rw [answer_readText]
  cases t.read p with
  | error e => simp [Except.bind]
  | ok content => cases content <;> simp [Except.bind, Content.text?]

theorem answer_firstThere? (t : FileTree) (ps : List Path) :
    t.answer (firstThere? ps) = ps.find? fun p => (t.kind? p).isSome := by
  induction ps with
  | nil => rfl
  | cons p ps ih =>
    have hthere : t.answer (isThere p) = (t.kind? p).isSome := rfl
    rw [firstThere?, (readsOnly_isThere p).answer_bind, hthere, List.find?_cons]
    cases (t.kind? p).isSome with
    | true => rfl
    | false => exact ih

end Files

end LineMarkup
