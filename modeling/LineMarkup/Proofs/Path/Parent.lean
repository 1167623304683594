import LineMarkup.Proofs.Path.Parts

/-!
The parent of a path, and the folders above it, by its text alone. The parent has the same parts but for
the last one that counts, and but for single dots; it stands in front of the last slash, slashes and dots
at its end left out.
-/

namespace LineMarkup.Path

set_option autoImplicit false

open FileTree (partsOf)

variable {p q f : Path}

/-- The first path names a folder above the second one. -/
inductive Above : Path → Path → Prop where
  | parent {p q : Path} : parent? p = some q → Above q p
  | step {p q r : Path} : parent? p = some q → Above r q → Above r p

theorem above_of_mem_go {n : Nat} (h : q ∈ ancestors.go n p) : q = p ∨ Above q p := by
  induction n generalizing p with
  | zero => exact Or.inl (List.mem_singleton.mp h)
  | succ n ih =>
    rw [ancestors.go] at h
    split at h
    next r hr =>
      rcases List.mem_cons.mp h with rfl | h
      · exact Or.inl rfl
      · rcases ih h with rfl | ha
        · exact Or.inr (.parent hr)
        · exact Or.inr (.step hr ha)
    next => exact Or.inl (List.mem_singleton.mp h)

theorem above_of_mem_ancestors (h : q ∈ ancestors p) : q = p ∨ Above q p := above_of_mem_go h

theorem Above.of_parent {folder : Path} (hp : parent? p = some folder)
    (h : q = folder ∨ Above q folder) : Above q p := by
  rcases h with rfl | ha
  · exact .parent hp
  · exact .step hp ha

/-- Where neither a slash nor a dot is written at the start, the first part is a name or a double dot. -/
theorem eq_nil_of_onlyDots (hs : start p = []) (hf : f <+: p)
    (hends : f = [] ∨ f.getLast? = some '/') (hdots : OnlyDots (partsOf f)) : f = [] := by
  refine hends.resolve_right fun hslash => ?_
  obtain ⟨hroot, _, hdot⟩ := start_eq_nil_iff.mp hs
  obtain ⟨rest, rfl⟩ := hf
  cases hcut : Text.cut '/' f with
  | none => exact absurd (List.mem_of_getLast? hslash) (Text.cut_eq_none_iff.mp hcut)
  | some pair =>
    obtain ⟨first, r⟩ := pair
    obtain ⟨rfl, hfirst⟩ := Text.cut_eq_some_iff.mp hcut
    cases first with
    | nil => exact absurd rfl (hroot (r ++ rest))
    | cons c first =>
      rw [partsOf_append_cons, partsOf_of_not_mem hfirst (List.cons_ne_nil c first)] at hdots
      have hc := hdots _ (List.mem_append_left _ (List.mem_singleton_self _))
      rw [hc] at hdot
      exact absurd rfl (hdot (r ++ rest))

/-- The parent has the parts of a path but for the last one that counts, and but for dots; it is a text
from which the path goes on. If it is empty, the path has nothing in front of its last part. -/
theorem partsOf_parent (h : parent? p = some q) :
    q = [] ∧ OnlyDots (partsOf p) ∨
    q <+: p ∧ ∃ dots last dots', OnlyDots dots ∧ OnlyDots dots' ∧
      partsOf p = partsOf q ++ (dots ++ last :: dots') ∧ (q = [] → dots = []) := by
  obtain ⟨dots', hdots', hp⟩ := partsOf_eq_core p
  rw [parent?] at h
  split at h
  next hcore =>
    rw [List.isEmpty_iff.mp hcore] at hp
    split at h
    next =>
      refine Or.inl ⟨(Option.some.inj h).symm, ?_⟩
      rw [hp]
      exact (onlyDots_start p).append hdots'
    next => cases h
  next hcore =>
    obtain rfl := Option.some.inj h
    obtain ⟨heq, hlast, hslash⟩ := beside_beforeLast (core p)
    obtain ⟨dots, hdots, hbefore⟩ := partsOf_trimBody (beforeLast (core p))
    have hcorep : core p <+: body p := prefix_trimBody (body p)
    have hbeforep : beforeLast (core p) <+: body p :=
      List.IsPrefix.trans ⟨lastPart (core p), heq.symm⟩ hcorep
    have hfolder : trimBody (beforeLast (core p)) <+: body p :=
      (prefix_trimBody (beforeLast (core p))).trans hbeforep
    have htrimmed : Trimmed (core p).reverse := by
      rw [core, trimBody, List.reverse_reverse]
      exact trimmed_trimReversed _
    have hname := lastPart_ne_nil htrimmed fun hc => hcore (List.isEmpty_iff.mpr hc)
    refine Or.inr ⟨?_, dots, lastPart (core p), dots', hdots, hdots', ?_, ?_⟩
    · have hpre := (List.prefix_append_right_inj (start p)).mpr hfolder
      rwa [start_append_body] at hpre
    · rw [partsOf_start_append hfolder, hp, heq, partsOf_append_of_slash hslash, hbefore,
        partsOf_of_not_mem hlast hname, ← heq]
      simp
    · intro hq
      obtain ⟨hs, ht⟩ := List.append_eq_nil_iff.mp hq
      rw [ht, partsOf_nil, List.nil_append] at hbefore
      rw [body_eq_self hs] at hbeforep
      rw [eq_nil_of_onlyDots hs hbeforep hslash (hbefore ▸ hdots)] at hbefore
      exact hbefore.symm

/-- A path starts with the paths above it, in its text and in its parts. -/
theorem Above.le (h : Above q p) : q <+: p ∧ partsOf q <+: partsOf p := by
  have hparent : ∀ {p q : Path}, parent? p = some q → q <+: p ∧ partsOf q <+: partsOf p := by
    intro p q hq
    rcases partsOf_parent hq with ⟨rfl, _⟩ | ⟨hle, dots, last, dots', _, _, hparts, _⟩
    · exact ⟨List.nil_prefix, List.nil_prefix⟩
    · exact ⟨hle, _, hparts.symm⟩
  induction h with
  | parent hq => exact hparent hq
  | step hq _ ih => exact ⟨ih.1.trans (hparent hq).1, ih.2.trans (hparent hq).2⟩

theorem onlyDots_of_parent_eq_none (h : parent? p = none) : OnlyDots (partsOf p) := by
  obtain ⟨dots, hdots, hp⟩ := partsOf_eq_core p
  rw [parent?] at h
  split at h
  next hcore =>
    rw [hp, List.isEmpty_iff.mp hcore]
    exact (onlyDots_start p).append hdots
  next => cases h

theorem isAbsolute_prefix_eq (h : q <+: p) (hne : q ≠ []) : isAbsolute p = isAbsolute q := by
  obtain ⟨rest, rfl⟩ := h
  cases q with
  | nil => exact absurd rfl hne
  | cons c q => rfl

/-- How a path starts is settled by what stands before a slash in it. -/
theorem start_append_cons (a x y : Path) : start (a ++ '/' :: x) = start (a ++ '/' :: y) := by
  cases a with
  | nil => rfl
  | cons c a =>
    cases a with
    | nil => unfold start; split <;> split <;> simp_all
    | cons d a => unfold start; split <;> split <;> simp_all

theorem start_beforeLast_append (h : beforeLast p ≠ []) (y : Path) :
    start (beforeLast p ++ y) = start p := by
  obtain ⟨hp, _, hends⟩ := beside_beforeLast p
  obtain ⟨d, hd⟩ := List.getLast?_eq_some_iff.mp (hends.resolve_left h)
  have hcons : ∀ x, beforeLast p ++ x = d ++ '/' :: x := by
    intro x
    rw [hd, List.append_assoc]
    rfl
  calc
    start (beforeLast p ++ y) = start (d ++ '/' :: y) := by rw [hcons]
    _ = start (d ++ '/' :: lastPart p) := start_append_cons d _ _
    _ = start p := by rw [← hcons, ← hp]

theorem start_append_cons_eq_nil {x : Path} (hs : start p = []) (hx : x <+: p) (hne : x ≠ [])
    (hdot : x ≠ ['.']) (y : Path) : start (x ++ '/' :: y) = [] := by
  obtain ⟨hroot, _, hhere⟩ := start_eq_nil_iff.mp hs
  obtain ⟨rest, rfl⟩ := hx
  refine start_eq_nil_iff.mpr ?_
  cases x with
  | nil => exact absurd rfl hne
  | cons c x =>
    cases x with
    | nil =>
      exact ⟨fun r hr => hroot rest (by cases hr; rfl), by simp, fun r hr => hdot (by cases hr; rfl)⟩
    | cons d x =>
      exact ⟨fun r hr => hroot (d :: x ++ rest) (by cases hr; rfl), by simp,
        fun r hr => hhere (x ++ rest) (by cases hr; rfl)⟩

theorem trimBody_ne_dot (b : Path) : trimBody b ≠ ['.'] := fun h =>
  (trimmed_trimReversed b.reverse).2.1 (List.reverse_eq_iff.mp h)

/-- The last part of a path is the last part of its body, unless the path is a single dot. -/
theorem beforeLast_eq_start_append (hdot : lastPart p ≠ ['.']) :
    beforeLast p = start p ++ beforeLast (body p) ∧ lastPart p = lastPart (body p) := by
  obtain ⟨hbody, hslash, hdir⟩ := beside_beforeLast (body p)
  have hp : p = start p ++ beforeLast (body p) ++ lastPart (body p) := by
    rw [List.append_assoc, ← hbody, start_append_body]
  have hends : start p ++ beforeLast (body p) = [] ∨
      (start p ++ beforeLast (body p)).getLast? = some '/' := by
    rcases hdir with hnil | hdir
    · rw [hnil, List.append_nil]
      rw [hnil] at hbody
      rcases start_cases p with ⟨hs, _⟩ | ⟨hs, hp, hb⟩ | ⟨hs, _⟩
      · rw [hs]
        exact Or.inr rfl
      · rcases hb with hb | hb
        · rw [hp, hb] at hdot
          exact absurd rfl hdot
        · rw [hbody] at hb
          exact absurd (List.mem_of_head? hb) hslash
      · exact Or.inl hs
    · exact Or.inr (by rw [List.getLast?_append, hdir]; rfl)
  have hbefore : beforeLast p = start p ++ beforeLast (body p) :=
    Template.folder_eq ⟨lastPart (body p), hp, hslash, hends⟩
  refine ⟨hbefore, List.append_cancel_left ((beside_beforeLast p).1.symm.trans ?_)⟩
  rw [hbefore]
  exact hp

/-- A path with its parent, and the dots which the text before the last slash has more than the parent. -/
structure HasParent (p q : Path) (dots : List Text) : Prop where
  parent : parent? p = some q
  le : q <+: p
  onlyDots : OnlyDots dots
  partsOf_eq : partsOf (beforeLast p) = partsOf q ++ dots
  nil_iff : q = [] ↔ beforeLast p = []
  start_eq : q ≠ [] → ∀ y, start (q ++ '/' :: y) = start p

theorem exists_hasParent (hname : lastPart p ≠ []) (hdot : lastPart p ≠ ['.']) :
    ∃ q dots, HasParent p q dots := by
  obtain ⟨hbefore, hlast⟩ := beforeLast_eq_start_append hdot
  have htrimmed : Trimmed (body p).reverse := trimmed_of_lastPart (hlast ▸ hname) (hlast ▸ hdot)
  have hcore : core p = body p := by
    rw [core, trimBody, htrimmed.eq, List.reverse_reverse]
  have hne : ¬ (core p).isEmpty = true := by
    intro h
    rw [hlast, ← hcore, List.isEmpty_iff.mp h] at hname
    exact hname rfl
  obtain ⟨heq, _, hends⟩ := beside_beforeLast (body p)
  have hbeforep : beforeLast (body p) <+: body p := ⟨_, heq.symm⟩
  have hfolder : trimBody (beforeLast (body p)) <+: body p :=
    (prefix_trimBody _).trans hbeforep
  obtain ⟨dots, hdots, hparts⟩ := partsOf_trimBody (beforeLast (body p))
  refine ⟨start p ++ trimBody (beforeLast (body p)), dots, ?_, ?_, hdots, ?_, ?_, ?_⟩
  · rw [parent?, if_neg hne, hcore]
  · have hpre := (List.prefix_append_right_inj (start p)).mpr hfolder
    rwa [start_append_body] at hpre
  · rw [hbefore, partsOf_start_append hbeforep, partsOf_start_append hfolder, hparts, List.append_assoc]
  · rw [hbefore]
    constructor
    · intro h
      obtain ⟨hs, ht⟩ := List.append_eq_nil_iff.mp h
      rw [ht] at hparts
      rw [body_eq_self hs] at hbeforep hends hparts ⊢
      rw [hs, eq_nil_of_onlyDots hs hbeforep hends (hparts ▸ hdots)]
      rfl
    · intro h
      obtain ⟨hs, hb⟩ := List.append_eq_nil_iff.mp h
      rw [hs, hb]
      rfl
  · intro hq y
    rcases start_cases p with ⟨hs, _⟩ | ⟨hs, _, hb⟩ | ⟨hs, hbody, _⟩
    · rw [hs]
      rfl
    · rw [hs]
      cases hx : trimBody (beforeLast (body p)) with
      | nil => rfl
      | cons c x =>
        obtain ⟨rest, hrest⟩ := hfolder
        rw [hx] at hrest
        rw [← hrest] at hb
        obtain rfl : c = '/' := by simpa using hb
        rfl
    · have hbodyp : body p <+: p := ⟨[], (List.append_nil (body p)).trans hbody⟩
      rw [hs, List.nil_append] at hq ⊢
      exact start_append_cons_eq_nil hs (hfolder.trans hbodyp) hq (trimBody_ne_dot _) y

/-- How many slashes stand between a folder and a name makes no difference to the parent. -/
theorem parent_eq_of_slashes {d x : Path} {k : Nat} (hp : p = d ++ '/' :: List.replicate k '/' ++ x)
    (hs : start d = []) (hd : Trimmed d.reverse) (hne : d ≠ []) (hx : '/' ∉ x) (hname : x ≠ [])
    (hdot : x ≠ ['.']) : beforeLast p = d ++ '/' :: List.replicate k '/' ∧ parent? p = some d := by
  have hfolder : (d ++ '/' :: List.replicate k '/').reverse =
      List.replicate (k + 1) '/' ++ d.reverse := by
    rw [← List.replicate_succ, List.reverse_append, List.reverse_replicate]
  have htrim : ∀ k : Nat, trimReversed (List.replicate k '/' ++ d.reverse) = d.reverse := by
    intro k
    induction k with
    | zero => exact hd.eq
    | succ k ih =>
      rw [List.replicate_succ, List.cons_append, trimReversed]
      exact ih
  have hends : (d ++ '/' :: List.replicate k '/').getLast? = some '/' := by
    rw [← List.head?_reverse, hfolder]
    rfl
  have hbefore : beforeLast p = d ++ '/' :: List.replicate k '/' :=
    Template.folder_eq ⟨x, hp, hx, Or.inr hends⟩
  have hlast : lastPart p = x := by
    have hsplit := (beside_beforeLast p).1.symm.trans hp
    rw [hbefore] at hsplit
    exact List.append_cancel_left hsplit
  have hstart : start p = [] := by
    rw [hp, List.append_assoc]
    exact start_append_cons_eq_nil hs List.prefix_rfl hne (start_eq_nil_iff.mp hs).2.1 _
  have htrimmed : Trimmed p.reverse := by
    refine trimmed_of_lastPart ?_ ?_
    · rwa [hlast]
    · rwa [hlast]
  have hcore : core p = p := by
    rw [core, body_eq_self hstart, trimBody, htrimmed.eq, List.reverse_reverse]
  have hpne : ¬ p.isEmpty = true := by
    rw [List.isEmpty_iff, hp]
    simp
  refine ⟨hbefore, ?_⟩
  rw [parent?, hcore, if_neg hpne, hstart, hbefore, trimBody, hfolder, htrim, List.reverse_reverse]
  rfl

/-- Parts as they are counted, without the dots that lead nowhere. -/
def counted (ps : List Text) : List Part :=
  (ps.filter fun s => s ≠ ['.']).map fun s => if s = ['.', '.'] then .up else .name s

theorem counted_append (ps qs : List Text) : counted (ps ++ qs) = counted ps ++ counted qs := by
  rw [counted, List.filter_append, List.map_append]
  rfl

theorem counted_eq_nil {ps : List Text} (h : OnlyDots ps) : counted ps = [] := by
  rw [counted, List.map_eq_nil_iff, List.filter_eq_nil_iff]
  intro s hs
  simp [h s hs]

/-- What the start of a path counts for. -/
def lead : Path → List Part
  | ['/'] => [.root]
  | ['.'] => [.here]
  | _ => []

theorem parts_eq (p : Path) : parts p = lead (start p) ++ counted (partsOf p) := by
  have hp := partsOf_start_append (p := p) List.prefix_rfl
  rw [start_append_body] at hp
  rw [hp, counted_append, counted_eq_nil (onlyDots_start p), List.nil_append, counted, partsOf,
    List.filter_filter, parts]
  simp only [Bool.and_comm]
  rfl

/-- Which parts a path has depends on how it starts and on the texts between its slashes. -/
theorem parts_congr {a b : Path} (hs : start a = start b)
    (hc : counted (partsOf a) = counted (partsOf b)) : parts a = parts b := by
  rw [parts_eq, parts_eq, hs, hc]

end LineMarkup.Path
