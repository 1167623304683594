import LineMarkup.Arguments
import LineMarkup.Proofs.Fallible

/-!
How command lines are written. A switch is spelled by one word or by two, an operand by one, and
what a line gives is what its spellings give, one after the other. A scan that accepts a line takes down
just that, though it looks at values later than at the words that they stand in.
-/

namespace LineMarkup.Arguments

set_option autoImplicit false

variable {κ : Type}

namespace Level

def named? (level : Level κ) (name : Text) : Option (Switch κ) :=
  level.switches.find? fun w => w.long = name

def lettered? (level : Level κ) (c : Char) : Option (Switch κ) :=
  level.switches.find? fun w => w.short = some c

/-- No switch puts its values where the operands go, and no subcommand looks like a switch. -/
structure Apart (level : Level κ) : Prop where
  operands : ∀ w ∈ level.switches, ∀ o ∈ level.operands, ∀ repeats check,
    w.use ≠ .value o.1 repeats check
  subcommands : ∀ name ∈ level.subcommands, name.head? ≠ some '-'

end Level

/-- A word that starts with a dash is a switch, or the double dash, unless it is nothing but the dash. -/
def IsPlain (a : Text) : Prop := a = ['-'] ∨ a.head? ≠ some '-'

/-- Short switches in one word, the word after it if the last of them takes that for its value, and what
they give. -/
inductive Letters (level : Level κ) : Text → List Text → List (κ × Text) → Prop where
  | nil : Letters level [] [] []
  | flag {c : Char} {w : Switch κ} {key : κ} {t : Text} {words : List Text}
      {given : List (κ × Text)} : level.lettered? c = some w → w.use = .flag key →
      Letters level t words given → Letters level (c :: t) words ((key, []) :: given)
  | attached {c : Char} {w : Switch κ} {key : κ} {repeats : Bool} {check : Check} {v : Text} :
      level.lettered? c = some w → w.use = .value key repeats check → v ≠ [] → v.head? ≠ some '=' →
      Letters level (c :: v) [] [(key, v)]
  | equals {c : Char} {w : Switch κ} {key : κ} {repeats : Bool} {check : Check} {v : Text} :
      level.lettered? c = some w → w.use = .value key repeats check →
      Letters level (c :: '=' :: v) [] [(key, v)]
  | next {c : Char} {w : Switch κ} {key : κ} {repeats : Bool} {check : Check} {v : Text} :
      level.lettered? c = some w → w.use = .value key repeats check → IsPlain v →
      Letters level [c] [v] [(key, v)]

/-- The words of a switch or an operand, or of several short switches in one word, and what they give. -/
inductive Spelling (level : Level κ) : List Text → List (κ × Text) → Prop where
  | flag {name : Text} {w : Switch κ} {key : κ} : name ≠ [] → '=' ∉ name →
      level.named? name = some w → w.use = .flag key →
      Spelling level ['-' :: '-' :: name] [(key, [])]
  | equals {name : Text} {w : Switch κ} {key : κ} {repeats : Bool} {check : Check} {v : Text} :
      '=' ∉ name → level.named? name = some w → w.use = .value key repeats check →
      Spelling level ['-' :: '-' :: (name ++ '=' :: v)] [(key, v)]
  | next {name : Text} {w : Switch κ} {key : κ} {repeats : Bool} {check : Check} {v : Text} :
      name ≠ [] → '=' ∉ name → level.named? name = some w → w.use = .value key repeats check →
      IsPlain v → Spelling level ['-' :: '-' :: name, v] [(key, v)]
  | letters {c : Char} {t : Text} {words : List Text} {given : List (κ × Text)} : c ≠ '-' →
      Letters level (c :: t) words given → Spelling level (('-' :: c :: t) :: words) given
  | operand {key : κ} {check : Check} {a : Text} : level.operands = some (key, check) → IsPlain a →
      a ∉ level.subcommands → Spelling level [a] [(key, a)]

/-- A line without a double dash. -/
inductive Spelled (level : Level κ) : List Text → List (κ × Text) → Prop where
  | nil : Spelled level [] []
  | cons {words args : List Text} {given more : List (κ × Text)} : Spelling level words given →
      Spelled level args more → Spelled level (words ++ args) (given ++ more)

/-- A line, in which everything after a double dash is an operand. -/
inductive Reading (level : Level κ) : List Text → List (κ × Text) → Prop where
  | plain {args : List Text} {given : List (κ × Text)} : Spelled level args given →
      Reading level args given
  | dash {args : List Text} {given : List (κ × Text)} : Spelled level args given →
      Reading level (args ++ [['-', '-']]) given
  | operands {args rest : List Text} {given : List (κ × Text)} {key : κ} {check : Check} :
      Spelled level args given → level.operands = some (key, check) →
      Reading level (args ++ ['-', '-'] :: rest) (given ++ rest.map fun a => (key, a))

/-- What a line gives up to its end, or up to a subcommand, whose name comes out with what follows it. -/
inductive Reaches (level : Level κ) : List Text → List (κ × Text) → Option (Text × List Text) → Prop where
  | ending {args : List Text} {given : List (κ × Text)} : Reading level args given →
      Reaches level args given none
  | subcommand {before : List Text} {name : Text} {rest : List Text} {given : List (κ × Text)} :
      Spelled level before given → name ∈ level.subcommands →
      Reaches level (before ++ name :: rest) given (some (name, rest))

section
variable {level : Level κ} {words args : List Text} {given more : List (κ × Text)} {a : Text}
  {out : Option (Text × List Text)}

theorem Reading.cons (h : Spelling level words given) (h' : Reading level args more) :
    Reading level (words ++ args) (given ++ more) := by
  cases h' with
  | plain h' => exact .plain (.cons h h')
  | dash h' =>
    rw [← List.append_assoc]
    exact .dash (.cons h h')
  | operands h' hoperands =>
    rw [← List.append_assoc, ← List.append_assoc]
    exact .operands (.cons h h') hoperands

theorem Reaches.cons (h : Spelling level words given) (h' : Reaches level args more out) :
    Reaches level (words ++ args) (given ++ more) out := by
  cases h' with
  | ending h' => exact .ending (.cons h h')
  | subcommand h' hname =>
    rw [← List.append_assoc]
    exact .subcommand (.cons h h') hname

theorem dash_cases (h : ¬ IsPlain a) :
    a = ['-', '-'] ∨ (∃ t, t ≠ [] ∧ a = '-' :: '-' :: t) ∨ ∃ c t, c ≠ '-' ∧ a = '-' :: c :: t := by
  obtain ⟨hone, hhead⟩ := not_or.mp h
  match a with
  | [] => simp at hhead
  | [c] => simp_all
  | c :: d :: t =>
    obtain rfl : c = '-' := by simpa using hhead
    by_cases hd : d = '-'
    · subst hd
      by_cases ht : t = []
      · exact Or.inl (by rw [ht])
      · exact Or.inr (Or.inl ⟨t, ht, rfl⟩)
    · exact Or.inr (Or.inr ⟨d, t, hd, rfl⟩)

end

/-- The values that are pending, as what they are given for. -/
def Pending.taken (p : Pending κ) : List (κ × Text) := p.values.map fun v => (p.key, v)

/-- What has been given, with what is still pending. -/
def Scan.all (s : Scan κ) : List (κ × Text) := s.given ++ s.pending.elim [] Pending.taken

namespace Scan

variable {level : Level κ} {s s' r r' : Scan κ} {args rest : List Text} {given more : List (κ × Text)}
  {key : κ} {v a t : Text} {out : Option (Text × List Text)}

/-- A scan in front of a word that may be a switch. -/
structure Ready (s : Scan κ) : Prop where
  awaiting : s.awaiting = false
  trailing : s.trailing = false

/-- A scan that has gone on from `s` and has been given more. -/
structure Gave (s s' : Scan κ) (given : List (κ × Text)) : Prop where
  ready : s'.Ready
  all_eq : s'.all = s.all ++ given

/-- A scan that has gone on from `s`, has been given more and waits for the value of a switch. -/
structure Waits (s s' : Scan κ) (given : List (κ × Text)) (key : κ) : Prop where
  given_eq : s'.given = s.all ++ given
  pending : ∃ repeats check, s'.pending = some ⟨key, repeats, check, []⟩
  awaiting : s'.awaiting = true
  trailing : s'.trailing = false

/-- A scan that has gone on from `s` by a switch: it has been given what the word spells, or waits for the
word that completes it. -/
def Takes (level : Level κ) (s s' : Scan κ) (a : Text) : Prop :=
  (∃ given, Spelling level [a] given ∧ Gave s s' given) ∨
    ∃ given key, (∀ v, IsPlain v → Spelling level [a, v] (given ++ [(key, v)])) ∧
      (∀ o ∈ level.operands, o.1 ≠ key) ∧ Waits s s' given key

theorem start_ready : (start : Scan κ).Ready := ⟨rfl, rfl⟩

theorem Gave.refl (hs : s.Ready) : Gave s s [] := ⟨hs, (List.append_nil _).symm⟩

theorem Gave.trans (h : Gave s s' given) (h' : Gave s' r more) : Gave s r (given ++ more) :=
  ⟨h'.ready, by rw [h'.all_eq, h.all_eq, List.append_assoc]⟩

theorem Gave.waits (h : Gave s s' given) (h' : Waits s' r more key) : Waits s r (given ++ more) key :=
  ⟨by rw [h'.given_eq, h.all_eq, List.append_assoc], h'.pending, h'.awaiting, h'.trailing⟩

theorem ne_of_apart {w : Switch κ} {repeats : Bool} {check : Check} (hlevel : level.Apart)
    (hw : w ∈ level.switches) (huse : w.use = .value key repeats check) :
    ∀ o ∈ level.operands, o.1 ≠ key := by
  rintro o ho rfl
  exact hlevel.operands w hw o ho repeats check huse

section
variable [DecidableEq κ]

theorem store_eq_ok {p : Pending κ} (h : s.store p = .ok s') :
    p.values ≠ [] ∧ s' = ⟨s.given ++ p.taken, none, false, s.trailing⟩ := by
  unfold store at h
  split at h
  next => cases h
  next hne =>
    split at h
    next => cases h
    next =>
      split at h
      next => cases h
      next => exact ⟨by simpa using hne, (Except.ok.inj h).symm⟩

theorem settle_eq_ok (h : s.settle = .ok s') :
    s'.given = s.all ∧ s'.pending = none ∧ s'.trailing = s.trailing ∧
      (s.awaiting = false → s'.awaiting = false) := by
  unfold settle at h
  split at h
  next hnone =>
    obtain rfl := Except.ok.inj h
    exact ⟨by simp [all, hnone], hnone, rfl, id⟩
  next p hp =>
    obtain ⟨_, rfl⟩ := store_eq_ok h
    exact ⟨by simp [all, hp], rfl, rfl, fun _ => rfl⟩

theorem apply_eq_ok {u : Use κ} {attached : Option Text} (hs : s.Ready)
    (h : s.apply u attached = .ok s') :
    (∃ key, u = .flag key ∧ attached = none ∧ Gave s s' [(key, [])]) ∨
      (∃ key repeats check v, u = .value key repeats check ∧ attached = some v ∧
        Gave s s' [(key, v)]) ∨
      ∃ key repeats check, u = .value key repeats check ∧ attached = none ∧ Waits s s' [] key := by
  unfold apply at h
  split at h
  next =>
    obtain ⟨_, _, h⟩ := exists_of_bind_eq_ok h
    cases h
  next =>
    obtain ⟨_, _, h⟩ := exists_of_bind_eq_ok h
    cases h
  next key =>
    obtain ⟨s₁, hsettle, h⟩ := exists_of_bind_eq_ok h
    obtain ⟨hgiven, hpending, htrailing, hawaiting⟩ := settle_eq_ok hsettle
    split at h
    next => cases h
    next =>
      obtain rfl := Except.ok.inj h
      refine Or.inl ⟨key, rfl, rfl, ⟨hawaiting hs.awaiting, htrailing.trans hs.trailing⟩, ?_⟩
      simp [all, hgiven, hpending]
  next key repeats check v =>
    obtain ⟨s₁, hsettle, h⟩ := exists_of_bind_eq_ok h
    obtain ⟨hgiven, hpending, htrailing, hawaiting⟩ := settle_eq_ok hsettle
    obtain ⟨_, rfl⟩ := store_eq_ok h
    refine Or.inr (Or.inl ⟨key, repeats, check, v, rfl, rfl, ⟨rfl, htrailing.trans hs.trailing⟩, ?_⟩)
    simp [all, hgiven, Pending.taken]
  next key repeats check =>
    obtain ⟨s₁, hsettle, h⟩ := exists_of_bind_eq_ok h
    obtain ⟨hgiven, hpending, htrailing, hawaiting⟩ := settle_eq_ok hsettle
    obtain rfl := Except.ok.inj h
    refine Or.inr (Or.inr ⟨key, repeats, check, rfl, rfl, ?_, ⟨repeats, check, rfl⟩, rfl,
      htrailing.trans hs.trailing⟩)
    rw [List.append_nil]
    exact hgiven
  next => cases h

theorem apply_flag (hs : s.Ready) (h : s.apply (.flag key) none = .ok s') :
    Gave s s' [(key, [])] := by
  rcases apply_eq_ok hs h with ⟨_, hu, _, hgave⟩ | ⟨_, _, _, _, hu, _⟩ | ⟨_, _, _, hu, _⟩
  · cases hu
    exact hgave
  · cases hu
  · cases hu

theorem apply_attached {repeats : Bool} {check : Check} (hs : s.Ready)
    (h : s.apply (.value key repeats check) (some v) = .ok s') : Gave s s' [(key, v)] := by
  rcases apply_eq_ok hs h with ⟨_, hu, _⟩ | ⟨_, _, _, _, hu, hv, hgave⟩ | ⟨_, _, _, _, hnone, _⟩
  · cases hu
  · cases hu
    cases hv
    exact hgave
  · cases hnone

theorem apply_next {repeats : Bool} {check : Check} (hs : s.Ready)
    (h : s.apply (.value key repeats check) none = .ok s') : Waits s s' [] key := by
  rcases apply_eq_ok hs h with ⟨_, hu, _⟩ | ⟨_, _, _, _, _, hv, _⟩ | ⟨_, _, _, hu, _, hwaits⟩
  · cases hu
  · cases hv
  · cases hu
    exact hwaits

theorem shorts_eq_ok (hlevel : level.Apart) (hs : s.Ready) (h : s.shorts level t = .ok s') :
    (∃ given, Letters level t [] given ∧ Gave s s' given) ∨
      ∃ given key, (∀ v, IsPlain v → Letters level t [v] (given ++ [(key, v)])) ∧
        (∀ o ∈ level.operands, o.1 ≠ key) ∧ Waits s s' given key := by
  induction t generalizing s with
  | nil =>
    obtain rfl := Except.ok.inj h
    exact Or.inl ⟨[], .nil, .refl hs⟩
  | cons c t ih =>
    rw [shorts] at h
    split at h
    next => cases h
    next w hw =>
      split at h
      next key repeats check huse =>
        rw [huse] at h
        split at h
        next =>
          exact Or.inr ⟨[], key, fun v hv => .next hw huse hv,
            ne_of_apart hlevel (List.mem_of_find?_eq_some hw) huse, apply_next hs h⟩
        next v => exact Or.inl ⟨_, .equals hw huse, apply_attached hs h⟩
        next hne heq =>
          refine Or.inl ⟨_, .attached hw huse hne ?_, apply_attached hs h⟩
          cases t with
          | nil => simp
          | cons d t =>
            intro hd
            exact heq t (by rw [Option.some.inj hd])
      next huse =>
        obtain ⟨s₁, happly, h⟩ := exists_of_bind_eq_ok h
        rcases apply_eq_ok hs happly with ⟨key, hu, _, hgave⟩ | ⟨_, _, _, _, _, hv, _⟩ |
          ⟨key, repeats, check, hu, _⟩
        · rcases ih hgave.ready h with ⟨given, hletters, hmore⟩ | ⟨given, key', hletters, hne, hwaits⟩
          · exact Or.inl ⟨_, .flag hw hu hletters, hgave.trans hmore⟩
          · exact Or.inr ⟨_, key', fun v hv => .flag hw hu (hletters v hv), hne, hgave.waits hwaits⟩
        · cases hv
        · exact absurd hu (huse key repeats check)

theorem long_takes (hlevel : level.Apart) (hs : s.Ready) (ht : t ≠ [])
    (h : s.long level t = .ok s') : Takes level s s' ('-' :: '-' :: t) := by
  unfold long at h
  cases hcut : Text.cut '=' t with
  | none =>
    have heq : '=' ∉ t := Text.cut_eq_none_iff.mp hcut
    rw [hcut] at h
    dsimp only at h
    split at h
    next w hw =>
      rcases apply_eq_ok hs h with ⟨key, hu, _, hgave⟩ | ⟨_, _, _, _, _, hv, _⟩ |
        ⟨key, repeats, check, hu, _, hwaits⟩
      · exact Or.inl ⟨_, .flag ht heq hw hu, hgave⟩
      · cases hv
      · exact Or.inr ⟨[], key, fun v hv => .next ht heq hw hu hv,
          ne_of_apart hlevel (List.mem_of_find?_eq_some hw) hu, hwaits⟩
    next => cases h
  | some p =>
    obtain ⟨name, v⟩ := p
    obtain ⟨rfl, heq⟩ := Text.cut_eq_some_iff.mp hcut
    rw [hcut] at h
    dsimp only at h
    split at h
    next w hw =>
      rcases apply_eq_ok hs h with ⟨_, _, hnone, _⟩ | ⟨key, repeats, check, _, hu, hv, hgave⟩ |
        ⟨_, _, _, _, hnone, _⟩
      · cases hnone
      · cases hv
        exact Or.inl ⟨_, .equals heq hw hu, hgave⟩
      · cases hnone
    next => cases h

theorem shorts_takes {c : Char} (hlevel : level.Apart) (hs : s.Ready) (hc : c ≠ '-')
    (h : s.shorts level (c :: t) = .ok s') : Takes level s s' ('-' :: c :: t) := by
  rcases shorts_eq_ok hlevel hs h with ⟨given, hletters, hgave⟩ | ⟨given, key, hletters, hne, hwaits⟩
  · exact Or.inl ⟨given, .letters hc hletters, hgave⟩
  · exact Or.inr ⟨given, key, fun v hv => .letters hc (hletters v hv), hne, hwaits⟩

theorem word_gave (hawaiting : s.awaiting = false) (h : s.word level a = .ok s') :
    ∃ key check, level.operands = some (key, check) ∧ s'.awaiting = false ∧
      s'.trailing = s.trailing ∧ s'.all = s.all ++ [(key, a)] := by
  unfold word at h
  split at h
  next htrue _ => simp [hawaiting] at htrue
  next =>
    split at h
    next => split at h <;> cases h
    next key check hoperands =>
      refine ⟨key, check, hoperands, ?_⟩
      split at h
      next p hp =>
        split at h
        next hkey =>
          obtain rfl := Except.ok.inj h
          refine ⟨hawaiting, rfl, ?_⟩
          simp [all, hp, Pending.taken, hkey]
        next =>
          obtain ⟨s₁, hsettle, h⟩ := exists_of_bind_eq_ok h
          obtain ⟨hgiven, _, htrailing, hfalse⟩ := settle_eq_ok hsettle
          obtain rfl := Except.ok.inj h
          refine ⟨hfalse hawaiting, htrailing, ?_⟩
          simp [all, hgiven, Pending.taken]
      next hnone =>
        obtain rfl := Except.ok.inj h
        refine ⟨hawaiting, rfl, ?_⟩
        simp [all, hnone, Pending.taken]

/-- A plain word goes to the switch that waits, or to the operands. -/
theorem line_plain (ha : IsPlain a) (htrailing : s.trailing = false)
    (hsub : s.awaiting = true ∨ a ∉ level.subcommands) :
    s.line level (a :: rest) = (s.word level a).bind fun s => s.line level rest := by
  have hno : (!s.awaiting && level.subcommands.contains a) = false := by
    rcases hsub with hsub | hsub
    · simp [hsub]
    · simp [hsub]
  rw [line]
  · rw [htrailing, hno]
    rfl
  · rintro rfl
    simp [IsPlain] at ha
  · rintro t rfl
    simp [IsPlain] at ha
  · rintro c t rfl
    simp [IsPlain] at ha

/-- The word after a switch that waits is its value. -/
theorem line_waiting {repeats : Bool} {check : Check} (hv : IsPlain v) (htrailing : s.trailing = false)
    (hawaiting : s.awaiting = true) (hpending : s.pending = some ⟨key, repeats, check, []⟩) :
    s.line level (v :: rest) =
      ({ s with pending := some ⟨key, repeats, check, [v]⟩, awaiting := false } : Scan κ).line level rest := by
  rw [line_plain hv htrailing (Or.inl hawaiting), word, hawaiting, htrailing, hpending]
  rfl

section
variable (hlevel : level.Apart) (htrailing : s.trailing = false)
include hlevel htrailing

theorem line_dash :
    s.line level (['-', '-'] :: rest) = ({ s with trailing := true } : Scan κ).line level rest := by
  have hno : ['-', '-'] ∉ level.subcommands := fun h => hlevel.subcommands _ h rfl
  rw [line, htrailing]
  simp [hno]

theorem line_long (ht : t ≠ []) : s.line level (('-' :: '-' :: t) :: rest) =
    (s.long level t).bind fun s => s.line level rest := by
  have hno : '-' :: '-' :: t ∉ level.subcommands := fun h => hlevel.subcommands _ h rfl
  rw [line]
  · rw [htrailing]
    simp [hno]
  · simpa using ht

theorem line_shorts {c : Char} (hc : c ≠ '-') : s.line level (('-' :: c :: t) :: rest) =
    (s.shorts level (c :: t)).bind fun s => s.line level rest := by
  have hno : '-' :: c :: t ∉ level.subcommands := fun h => hlevel.subcommands _ h rfl
  rw [line]
  · rw [htrailing]
    simp [hno]
  · simp [hc]
  · simp [hc]

end

/-- After a double dash every word is an operand. -/
theorem line_trailing (hawaiting : s.awaiting = false) (htrailing : s.trailing = true)
    (h : s.line level args = .ok (r, out)) : out = none ∧
      (args = [] ∧ r.all = s.all ∨ ∃ key check, level.operands = some (key, check) ∧
        r.all = s.all ++ args.map fun a => (key, a)) := by
  induction args generalizing s with
  | nil =>
    cases h
    exact ⟨rfl, Or.inl ⟨rfl, rfl⟩⟩
  | cons a rest ih =>
    have hline : s.line level (a :: rest) = (s.word level a).bind fun s => s.line level rest := by
      rw [line.eq_def]
      simp [htrailing]
    rw [hline] at h
    obtain ⟨s₁, hword, h⟩ := exists_of_bind_eq_ok h
    obtain ⟨key, check, hoperands, hawaiting₁, htrailing₁, hall⟩ := word_gave hawaiting hword
    obtain ⟨hout, hrest⟩ := ih hawaiting₁ (htrailing₁.trans htrailing) h
    refine ⟨hout, Or.inr ⟨key, check, hoperands, ?_⟩⟩
    rcases hrest with ⟨rfl, hr⟩ | ⟨key', check', hoperands', hr⟩
    · rw [hr, hall]
      rfl
    · obtain ⟨rfl, rfl⟩ := (Prod.mk.injEq _ _ _ _).mp (Option.some.inj (hoperands.symm.trans hoperands'))
      rw [hr, hall, List.append_assoc]
      rfl

namespace Waits
variable (h : Waits s s' given key)
include h

variable (level rest) in
theorem line_cons (hv : IsPlain v) : ∃ r,
    s'.line level (v :: rest) = r.line level rest ∧ Gave s r (given ++ [(key, v)]) := by
  obtain ⟨repeats, check, hpending⟩ := h.pending
  refine ⟨{ s' with pending := some ⟨key, repeats, check, [v]⟩, awaiting := false },
    line_waiting hv h.trailing h.awaiting hpending, ⟨rfl, h.trailing⟩, ?_⟩
  simp [all, h.given_eq, Pending.taken]

theorem settle_ne_ok (hr : r.pending = s'.pending) : r.settle ≠ .ok r' := by
  obtain ⟨repeats, check, hpending⟩ := h.pending
  rw [Scan.settle, hr, hpending]
  exact fun h => by cases h

theorem apply_ne_ok (u : Use κ) (attached : Option Text) : s'.apply u attached ≠ .ok r := by
  intro happly
  unfold Scan.apply at happly
  split at happly
  case h_6 => cases happly
  all_goals
    obtain ⟨_, hsettle, _⟩ := exists_of_bind_eq_ok happly
    exact h.settle_ne_ok rfl hsettle

theorem long_ne_ok : s'.long level t ≠ .ok r := by
  intro hlong
  unfold Scan.long at hlong
  split at hlong
  split at hlong
  next w _ => exact h.apply_ne_ok w.use _ hlong
  next => cases hlong

theorem shorts_ne_ok {c : Char} : s'.shorts level (c :: t) ≠ .ok r := by
  intro hshorts
  rw [Scan.shorts] at hshorts
  split at hshorts
  next => cases hshorts
  next w _ =>
    split at hshorts
    next =>
      split at hshorts
      next => exact h.apply_ne_ok w.use _ hshorts
      next => exact h.apply_ne_ok w.use _ hshorts
      next => exact h.apply_ne_ok w.use _ hshorts
    next =>
      obtain ⟨_, happly, _⟩ := exists_of_bind_eq_ok hshorts
      exact h.apply_ne_ok w.use _ happly

theorem word_ne_ok (hne : ∀ o ∈ level.operands, o.1 ≠ key) :
    ({ s' with trailing := true } : Scan κ).word level a ≠ .ok r := by
  obtain ⟨repeats, check, hpending⟩ := h.pending
  intro hword
  unfold Scan.word at hword
  split at hword
  next htrue _ => simp at htrue
  next =>
    split at hword
    next => split at hword <;> cases hword
    next key' check' hoperands =>
      have hkey : key ≠ key' := fun heq => hne _ hoperands heq.symm
      simp only [hpending, if_neg hkey] at hword
      obtain ⟨_, hsettle, _⟩ := exists_of_bind_eq_ok hword
      exact h.settle_ne_ok hpending.symm hsettle

/-- Nothing but the value can come next. -/
theorem exists_plain (hlevel : level.Apart) (hne : ∀ o ∈ level.operands, o.1 ≠ key)
    (hline : s'.line level args = .ok (r, out)) (hr : r.settle = .ok r') :
    ∃ v rest, args = v :: rest ∧ IsPlain v := by
  cases args with
  | nil =>
    cases hline
    exact absurd hr (h.settle_ne_ok rfl)
  | cons a rest =>
    refine ⟨a, rest, rfl, ?_⟩
    by_contra ha
    rcases dash_cases ha with rfl | ⟨t, ht, rfl⟩ | ⟨c, t, hc, rfl⟩
    · rw [line_dash hlevel h.trailing] at hline
      cases rest with
      | nil =>
        cases hline
        exact absurd hr (h.settle_ne_ok rfl)
      | cons b rest =>
        rw [line.eq_def] at hline
        obtain ⟨s₁, hword, _⟩ := exists_of_bind_eq_ok hline
        exact h.word_ne_ok hne hword
    · rw [line_long hlevel h.trailing ht] at hline
      obtain ⟨s₁, hlong, _⟩ := exists_of_bind_eq_ok hline
      exact h.long_ne_ok hlong
    · rw [line_shorts hlevel h.trailing hc] at hline
      obtain ⟨s₁, hshorts, _⟩ := exists_of_bind_eq_ok hline
      exact h.shorts_ne_ok hshorts

end Waits

/-- A scan that comes to its end has been given what the line gives. -/
theorem reaches_of_line (hlevel : level.Apart) (hs : s.Ready) (h : s.line level args = .ok (r, out))
    (hr : r.settle = .ok r') : ∃ given, Reaches level args given out ∧ r'.given = s.all ++ given := by
  -- A switch may take two words, so the induction is on the number of words.
  induction hn : args.length using Nat.strongRecOn generalizing args s with
  | ind n ih =>
    cases args with
    | nil =>
      cases h
      exact ⟨[], .ending (.plain .nil), by rw [(settle_eq_ok hr).1, List.append_nil]⟩
    | cons a rest =>
      have hrest : rest.length < n := by rw [← hn]; exact Nat.lt_succ_self _
      have htakes : ∀ s₁, Takes level s s₁ a → s₁.line level rest = .ok (r, out) →
          ∃ given, Reaches level (a :: rest) given out ∧ r'.given = s.all ++ given := by
        rintro s₁ (⟨given, hspell, hgave⟩ | ⟨given, key, hspell, hne, hwaits⟩) hline
        · obtain ⟨more, hreaches, hall⟩ := ih rest.length hrest hgave.ready hline rfl
          exact ⟨_, hreaches.cons hspell, by rw [hall, hgave.all_eq, List.append_assoc]⟩
        · obtain ⟨v, rest, rfl, hv⟩ := hwaits.exists_plain hlevel hne hline hr
          obtain ⟨s₂, hcons, hgave⟩ := hwaits.line_cons level rest hv
          rw [hcons] at hline
          have hless : rest.length < n := Nat.lt_of_succ_lt hrest
          obtain ⟨more, hreaches, hall⟩ := ih rest.length hless hgave.ready hline rfl
          exact ⟨_, hreaches.cons (hspell v hv), by rw [hall, hgave.all_eq, List.append_assoc]⟩
      by_cases hsub : a ∈ level.subcommands
      · rw [line.eq_def] at h
        simp only [hs.awaiting, hs.trailing, List.contains_iff_mem.mpr hsub] at h
        cases h
        exact ⟨[], .subcommand .nil hsub, by rw [(settle_eq_ok hr).1, List.append_nil]⟩
      · by_cases ha : IsPlain a
        · rw [line_plain ha hs.trailing (Or.inr hsub)] at h
          obtain ⟨s₁, hword, h⟩ := exists_of_bind_eq_ok h
          obtain ⟨key, check, hoperands, hawaiting, htrailing, hall⟩ := word_gave hs.awaiting hword
          exact htakes s₁ (Or.inl ⟨_, .operand hoperands ha hsub,
            ⟨hawaiting, htrailing.trans hs.trailing⟩, hall⟩) h
        · rcases dash_cases ha with rfl | ⟨t, ht, rfl⟩ | ⟨c, t, hc, rfl⟩
          · rw [line_dash hlevel hs.trailing] at h
            obtain ⟨rfl, hrest⟩ := line_trailing (s := { s with trailing := true }) hs.awaiting rfl h
            rw [(settle_eq_ok hr).1]
            rcases hrest with ⟨rfl, hall⟩ | ⟨key, check, hoperands, hall⟩
            · exact ⟨[], .ending (.dash .nil), by rw [hall, List.append_nil]; rfl⟩
            · exact ⟨_, .ending (.operands .nil hoperands), hall⟩
          · rw [line_long hlevel hs.trailing ht] at h
            obtain ⟨s₁, hlong, h⟩ := exists_of_bind_eq_ok h
            exact htakes s₁ (long_takes hlevel hs ht hlong) h
          · rw [line_shorts hlevel hs.trailing hc] at h
            obtain ⟨s₁, hshorts, h⟩ := exists_of_bind_eq_ok h
            exact htakes s₁ (shorts_takes hlevel hs hc hshorts) h

theorem long_of_not_mem {w : Switch κ} (ht : '=' ∉ t) (hw : level.named? t = some w) :
    s.long level t = s.apply w.use none := by
  unfold long
  rw [Text.cut_eq_none_iff.mpr ht]
  simp only [show level.switches.find? _ = _ from hw]

theorem long_of_equals {w : Switch κ} {name : Text} (hname : '=' ∉ name)
    (hw : level.named? name = some w) :
    s.long level (name ++ '=' :: v) = s.apply w.use (some v) := by
  unfold long
  rw [Text.cut_eq_some_iff.mpr ⟨rfl, hname⟩]
  simp only [show level.switches.find? _ = _ from hw]

theorem shorts_attached {w : Switch κ} {repeats : Bool} {check : Check} {c : Char}
    (hw : level.lettered? c = some w) (huse : w.use = .value key repeats check) (hne : v ≠ [])
    (heq : v.head? ≠ some '=') :
    s.shorts level (c :: v) = s.apply (.value key repeats check) (some v) := by
  simp only [shorts, show level.switches.find? _ = _ from hw, huse]
  split
  next => exact absurd rfl hne
  next => exact absurd rfl heq
  next => rfl

section
variable (hs : s.Ready) {x : Scan κ × Option (Text × List Text)}
include hs

theorem shorts_letters {words : List Text} (h : Letters level t words given)
    (hok : ((s.shorts level t).bind fun s => s.line level (words ++ rest)) = .ok x) :
    ∃ s', Gave s s' given ∧ s'.line level rest = .ok x := by
  induction h generalizing s with
  | nil => exact ⟨s, .refl hs, hok⟩
  | flag hw huse _ ih =>
    obtain ⟨s₁, hshorts, hline⟩ := exists_of_bind_eq_ok hok
    simp only [shorts, show level.switches.find? _ = _ from hw, huse] at hshorts
    obtain ⟨s₂, happly, hshorts⟩ := exists_of_bind_eq_ok hshorts
    have hgave := apply_flag hs happly
    obtain ⟨s₃, hmore, hrest⟩ := ih hgave.ready (by rw [hshorts]; exact hline)
    exact ⟨s₃, hgave.trans hmore, hrest⟩
  | @attached c w key repeats check v hw huse hne heq =>
    obtain ⟨s₁, hshorts, hline⟩ := exists_of_bind_eq_ok hok
    rw [shorts_attached hw huse hne heq] at hshorts
    exact ⟨s₁, apply_attached hs hshorts, hline⟩
  | @equals c w key repeats check v hw huse =>
    obtain ⟨s₁, hshorts, hline⟩ := exists_of_bind_eq_ok hok
    simp only [shorts, show level.switches.find? _ = _ from hw, huse] at hshorts
    exact ⟨s₁, apply_attached hs hshorts, hline⟩
  | @next c w key repeats check v hw huse hv =>
    obtain ⟨s₁, hshorts, hline⟩ := exists_of_bind_eq_ok hok
    simp only [shorts, show level.switches.find? _ = _ from hw, huse] at hshorts
    obtain ⟨s₂, hcons, hgave⟩ := (apply_next hs hshorts).line_cons level rest hv
    exact ⟨s₂, hgave, hcons ▸ hline⟩

theorem line_spelling (hlevel : level.Apart) {words : List Text} (h : Spelling level words given)
    (hok : s.line level (words ++ rest) = .ok x) : ∃ s', Gave s s' given ∧ s'.line level rest = .ok x := by
  cases h with
  | flag hne heq hw huse =>
    rw [List.cons_append, line_long hlevel hs.trailing hne, long_of_not_mem heq hw, huse] at hok
    obtain ⟨s₁, happly, hline⟩ := exists_of_bind_eq_ok hok
    exact ⟨s₁, apply_flag hs happly, hline⟩
  | equals heq hw huse =>
    rw [List.cons_append, line_long hlevel hs.trailing (by simp), long_of_equals heq hw, huse] at hok
    obtain ⟨s₁, happly, hline⟩ := exists_of_bind_eq_ok hok
    exact ⟨s₁, apply_attached hs happly, hline⟩
  | next hne heq hw huse hv =>
    rw [List.cons_append, line_long hlevel hs.trailing hne, long_of_not_mem heq hw, huse] at hok
    obtain ⟨s₁, happly, hline⟩ := exists_of_bind_eq_ok hok
    obtain ⟨s₂, hcons, hgave⟩ := (apply_next hs happly).line_cons level rest hv
    exact ⟨s₂, hgave, hcons ▸ hline⟩
  | letters hc hletters =>
    rw [List.cons_append, line_shorts hlevel hs.trailing hc] at hok
    exact shorts_letters hs hletters hok
  | operand hoperands ha hsub =>
    rw [List.cons_append, line_plain ha hs.trailing (Or.inr hsub)] at hok
    obtain ⟨s₁, hword, hline⟩ := exists_of_bind_eq_ok hok
    obtain ⟨key, check, hoperands', hawaiting, htrailing, hall⟩ := word_gave hs.awaiting hword
    cases hoperands.symm.trans hoperands'
    exact ⟨s₁, ⟨⟨hawaiting, htrailing.trans hs.trailing⟩, hall⟩, hline⟩

theorem line_spelled (hlevel : level.Apart) (h : Spelled level args given)
    (hok : s.line level (args ++ rest) = .ok x) : ∃ s', Gave s s' given ∧ s'.line level rest = .ok x := by
  induction h generalizing s with
  | nil => exact ⟨s, .refl hs, hok⟩
  | cons hspell _ ih =>
    rw [List.append_assoc] at hok
    obtain ⟨s₁, hgave, hline⟩ := line_spelling hs hlevel hspell hok
    obtain ⟨s₂, hmore, hrest⟩ := ih hgave.ready hline
    exact ⟨s₂, hgave.trans hmore, hrest⟩

end

/-- However a line is read, a scan that comes to its end has been given the same. -/
theorem given_of_reaches (hlevel : level.Apart) (hs : s.Ready) {out' : Option (Text × List Text)}
    (h : Reaches level args given out') (hok : s.line level args = .ok (r, out))
    (hr : r.settle = .ok r') : out = out' ∧ r'.given = s.all ++ given := by
  cases h with
  | ending h =>
    cases h with
    | plain h =>
      rw [← List.append_nil args] at hok
      obtain ⟨s₁, hgave, hline⟩ := line_spelled hs hlevel h hok
      cases hline
      exact ⟨rfl, by rw [(settle_eq_ok hr).1, hgave.all_eq]⟩
    | dash h =>
      obtain ⟨s₁, hgave, hline⟩ := line_spelled hs hlevel h hok
      rw [line_dash hlevel hgave.ready.trailing] at hline
      cases hline
      exact ⟨rfl, by rw [(settle_eq_ok hr).1]; exact hgave.all_eq⟩
    | operands h hoperands =>
      obtain ⟨s₁, hgave, hline⟩ := line_spelled hs hlevel h hok
      rw [line_dash hlevel hgave.ready.trailing] at hline
      obtain ⟨rfl, hrest⟩ :=
        line_trailing (s := { s₁ with trailing := true }) hgave.ready.awaiting rfl hline
      have hall : ({ s₁ with trailing := true } : Scan κ).all = s.all ++ _ := hgave.all_eq
      refine ⟨rfl, ?_⟩
      rw [(settle_eq_ok hr).1]
      rcases hrest with ⟨rfl, hr⟩ | ⟨key', check', hoperands', hr⟩
      · rw [hr, hall, List.map_nil, List.append_nil]
      · cases hoperands.symm.trans hoperands'
        rw [hr, hall, List.append_assoc]
  | subcommand h hname =>
    obtain ⟨s₁, hgave, hline⟩ := line_spelled hs hlevel h hok
    rw [line.eq_def] at hline
    simp only [hgave.ready.awaiting, hgave.ready.trailing, List.contains_iff_mem.mpr hname] at hline
    cases hline
    exact ⟨rfl, by rw [(settle_eq_ok hr).1, hgave.all_eq]⟩

end

end Scan

namespace Level

variable [DecidableEq κ] {level : Level κ} {args : List Text} {given : List (κ × Text)} {s : Scan κ}

/-- A line without subcommands that is accepted has one reading, and gives what that says. -/
theorem reading_iff (hlevel : level.Apart) (hsub : level.subcommands = [])
    (h : level.read args = .ok s) : Reading level args given ↔ given = s.given := by
  obtain ⟨⟨r, out⟩, hline, hr⟩ := exists_of_bind_eq_ok h
  constructor
  · intro hreading
    exact (Scan.given_of_reaches hlevel Scan.start_ready (.ending hreading) hline hr).2.symm
  · rintro rfl
    obtain ⟨given, hreaches, hgiven⟩ := Scan.reaches_of_line hlevel Scan.start_ready hline hr
    cases hreaches with
    | ending hreading => exact hgiven ▸ hreading
    | subcommand _ hname =>
      rw [hsub] at hname
      cases hname

end Level

end LineMarkup.Arguments
