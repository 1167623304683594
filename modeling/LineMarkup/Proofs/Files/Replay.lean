import LineMarkup.Proofs.Files.Events
import LineMarkup.Proofs.Path.Parent

/-!
Programs run against a record of requests and answers. A program takes its requests off the front of
the record, gets the answers that stand there, and fails where the record holds another request. So a
record says what a program did without saying what else was done to the files in between.
-/

namespace LineMarkup

set_option autoImplicit false

abbrev Replay := StateT (List Event) Option

namespace Replay

/-- The answer that comes next, if it is one to this request. -/
def ask (r : Request) : Replay r.Answer
  | [] => none
  | e :: rest => if h : e.request = r then some (h ▸ e.answer, rest) else none

instance : Files Replay where
  read p := ask (.read p)
  write p text := ask (.write p text)
  makeFolder p := ask (.makeFolder p)
  kind? p := ask (.kind? p)

variable {α β : Type} {es rest : List Event}

theorem run_bind_eq_some {x : Replay α} {f : α → Replay β} {b : β} :
    (x >>= f).run es = some (b, rest) ↔
      ∃ a mid, x.run es = some (a, mid) ∧ (f a).run mid = some (b, rest) := by
  rw [StateT.run_bind]
  constructor
  · intro h
    obtain ⟨⟨a, mid⟩, hx, hf⟩ := Option.bind_eq_some_iff.mp h
    exact ⟨a, mid, hx, hf⟩
  · rintro ⟨a, mid, hx, hf⟩
    exact Option.bind_eq_some_iff.mpr ⟨(a, mid), hx, hf⟩

theorem run_pure_eq_some {a b : α} :
    (pure a : Replay α).run es = some (b, rest) ↔ a = b ∧ es = rest := by
  rw [StateT.run_pure]
  constructor
  · intro h
    exact (Prod.mk.injEq _ _ _ _).mp (Option.some.inj h)
  · rintro ⟨rfl, rfl⟩
    rfl

theorem run_send_eq_some {r : Request} {a : r.Answer} :
    (r.send (m := Replay)).run es = some (a, rest) ↔ es = ⟨r, a⟩ :: rest := by
  have hask : r.send (m := Replay) = ask r := by cases r <;> rfl
  rw [hask]
  cases es with
  | nil => exact ⟨fun h => (by cases h), fun h => (by cases h)⟩
  | cons e es =>
    have hrun : (ask r).run (e :: es) =
        if h : e.request = r then some (h ▸ e.answer, es) else none := rfl
    rw [hrun]
    constructor
    · intro h
      split at h
      next hr =>
        obtain ⟨r', a'⟩ := e
        subst hr
        cases h
        rfl
      next => cases h
    · intro h
      cases h
      exact dif_pos rfl

end Replay

/-- On every tree `x` does what `y` does on some record of answers which that tree gives; on whatever
record `y` is run, its requests and their answers are among those of `P`; and if these are the answers
of a tree, `x` does the same on that tree. -/
structure Follows {α : Type} (P : Event → Prop) (x : StateM FileTree α) (y : Replay α) : Prop where
  recorded : ∀ t, ∃ es, Answers t es (x.run t).2 ∧
    ∀ rest, y.run (es ++ rest) = some ((x.run t).1, rest)
  requests : ∀ es a rest, y.run es = some (a, rest) →
    ∃ used, es = used ++ rest ∧ ∀ e ∈ used, P e
  replayed : ∀ used a rest t u, y.run (used ++ rest) = some (a, rest) → Answers t used u →
    x.run t = (a, u)

namespace Follows

variable {α β : Type} {P : Event → Prop} {x : StateM FileTree α} {y : Replay α}

theorem pure (a : α) : Follows P (pure a) (pure a) := by
  constructor
  · intro t
    exact ⟨[], .nil t, fun rest => rfl⟩
  · intro es b rest h
    obtain ⟨_, rfl⟩ := Replay.run_pure_eq_some.mp h
    exact ⟨[], rfl, fun e he => absurd he List.not_mem_nil⟩
  · intro used b rest t u h hu
    obtain ⟨rfl, hused⟩ := Replay.run_pure_eq_some.mp h
    obtain rfl := List.append_left_eq_self.mp hused
    cases hu
    rfl

theorem bind {f : α → StateM FileTree β} {g : α → Replay β} (hx : Follows P x y)
    (hf : ∀ a, Follows P (f a) (g a)) : Follows P (x >>= f) (y >>= g) := by
  constructor
  · intro t
    obtain ⟨es, hes, hy⟩ := hx.recorded t
    obtain ⟨more, hmore, hg⟩ := (hf (x.run t).1).recorded (x.run t).2
    refine ⟨es ++ more, hes.append hmore, fun rest => ?_⟩
    rw [List.append_assoc]
    exact Replay.run_bind_eq_some.mpr ⟨_, _, hy (more ++ rest), hg rest⟩
  · intro es b rest h
    obtain ⟨a, mid, hya, hga⟩ := Replay.run_bind_eq_some.mp h
    obtain ⟨used, rfl, hused⟩ := hx.requests es a mid hya
    obtain ⟨more, rfl, hmore⟩ := (hf a).requests mid b rest hga
    exact ⟨used ++ more, (List.append_assoc used more rest).symm,
      List.forall_mem_append.mpr ⟨hused, hmore⟩⟩
  · intro used b rest t u h hu
    obtain ⟨a, mid, hya, hga⟩ := Replay.run_bind_eq_some.mp h
    obtain ⟨first, hfirst, _⟩ := hx.requests _ a mid hya
    obtain ⟨more, rfl, _⟩ := (hf a).requests mid b rest hga
    rw [← List.append_assoc, List.append_left_inj] at hfirst
    rw [hfirst] at hu
    obtain ⟨s, hs, hu⟩ := hu.split
    rw [hfirst, List.append_assoc] at hya
    rw [StateT.run_bind, hx.replayed first a _ t s hya hs]
    exact (hf a).replayed more b rest s u hga hu

/-- What a program makes of a tree comes from the answers that the tree gives to its requests. -/
theorem exists_answers (h : Follows P x y) (t : FileTree) :
    ∃ es, Answers t es (x.run t).2 ∧ ∀ e ∈ es, P e := by
  obtain ⟨es, hanswers, hreplay⟩ := h.recorded t
  obtain ⟨used, hes, hon⟩ := h.requests es _ [] (by simpa using hreplay [])
  rw [List.append_nil] at hes
  subst hes
  exact ⟨es, hanswers, hon⟩

theorem mono {Q : Event → Prop} (h : Follows P x y) (hPQ : ∀ e, P e → Q e) : Follows Q x y := by
  refine ⟨h.recorded, ?_, h.replayed⟩
  intro es a rest hy
  obtain ⟨used, hes, hused⟩ := h.requests es a rest hy
  exact ⟨used, hes, fun e he => hPQ e (hused e he)⟩

theorem ite {c : Prop} [Decidable c] {x' : StateM FileTree α} {y' : Replay α} (h : Follows P x y)
    (h' : Follows P x' y') : Follows P (if c then x else x') (if c then y else y') := by
  split
  next => exact h
  next => exact h'

theorem send {r : Request} (hr : ∀ answer, P ⟨r, answer⟩) : Follows P r.send r.send := by
  constructor
  · intro t
    have he : Event.Happens ⟨r, ((r.send (m := StateM FileTree)).run t).1⟩ t
        ((r.send (m := StateM FileTree)).run t).2 := rfl
    exact ⟨[_], .cons he (.nil _), fun rest => Replay.run_send_eq_some.mpr rfl⟩
  · intro es a rest h
    exact ⟨[⟨r, a⟩], Replay.run_send_eq_some.mp h, by simpa using hr a⟩
  · intro used a rest t u h hu
    have hused : used ++ rest = [⟨r, a⟩] ++ rest := Replay.run_send_eq_some.mp h
    rw [List.append_left_inj] at hused
    subst hused
    cases hu with
    | cons he hnil =>
      cases hnil
      exact he

end Follows

namespace Files

variable {P : Event → Prop}

theorem follows_readText {p : Path} (hr : ∀ answer, P ⟨.read p, answer⟩) :
    Follows P (readText p) (readText p) := by
  refine (Follows.send (r := .read p) hr).bind fun answer => ?_
  cases answer with
  | error e => exact Follows.pure _
  | ok content => exact Follows.pure _

theorem run_readText {p : Path} {es rest : List Event} {r : Except FileError Text}
    (h : (readText p : Replay _).run es = some (r, rest)) :
    ∃ answer : Except FileError Content,
      es = ⟨.read p, answer⟩ :: rest ∧ answer.bind Content.text? = r := by
  obtain ⟨answer, mid, hread, hpure⟩ := Replay.run_bind_eq_some.mp h
  obtain rfl := (Replay.run_send_eq_some (r := .read p)).mp hread
  refine ⟨answer, ?_⟩
  cases answer with
  | error e =>
    obtain ⟨rfl, rfl⟩ := Replay.run_pure_eq_some.mp hpure
    exact ⟨rfl, rfl⟩
  | ok content =>
    obtain ⟨rfl, rfl⟩ := Replay.run_pure_eq_some.mp hpure
    exact ⟨rfl, rfl⟩

theorem follows_makeChain {ps : List Path} (hmake : ∀ p ∈ ps, ∀ answer, P ⟨.makeFolder p, answer⟩)
    (hkind : ∀ p ∈ ps, ∀ answer, P ⟨.kind? p, answer⟩) : Follows P (makeChain ps) (makeChain ps) := by
  induction ps with
  | nil => exact Follows.pure _
  | cons p above ih =>
    obtain ⟨hmakep, hmake⟩ := List.forall_mem_cons.mp hmake
    obtain ⟨hkindp, hkind⟩ := List.forall_mem_cons.mp hkind
    have hfolder : Follows P (isFolder p) (isFolder p) :=
      (Follows.send (r := .kind? p) hkindp).bind fun _ => Follows.pure _
    have hagain : Follows P (Files.makeFolder p) (Files.makeFolder p) :=
      Follows.send (r := .makeFolder p) hmakep
    rw [makeChain, makeChain]
    refine (Follows.pure _).ite (hagain.bind fun answer => ?_)
    split
    next => exact Follows.pure _
    next =>
      refine (ih hmake hkind).bind fun above => ?_
      split
      next => exact Follows.pure _
      next =>
        refine hagain.bind fun answer => ?_
        split
        next => exact Follows.pure _
        next => exact hfolder.bind fun _ => (Follows.pure _).ite (Follows.pure _)
    next => exact hfolder.bind fun _ => (Follows.pure _).ite (Follows.pure _)

theorem follows_makeFolders {dir : Path}
    (hmake : ∀ p, p = dir ∨ p.Above dir → ∀ answer, P ⟨.makeFolder p, answer⟩)
    (hkind : ∀ p, p = dir ∨ p.Above dir → ∀ answer, P ⟨.kind? p, answer⟩) :
    Follows P (makeFolders dir) (makeFolders dir) :=
  follows_makeChain (fun p hp => hmake p (Path.above_of_mem_ancestors hp))
    fun p hp => hkind p (Path.above_of_mem_ancestors hp)

end Files

end LineMarkup
