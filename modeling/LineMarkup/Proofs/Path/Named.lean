import LineMarkup.Proofs.Path.Parent

/-!
Paths that name a file: the text of a folder, the name, and at the end slashes and dots that do not
count. A path has the parts of its folder and then the name, and this is what its parent and its file
name are read off from.
-/

namespace LineMarkup.Path

set_option autoImplicit false

open FileTree (partsOf)

/-- Slashes at the end of a path, each with a dot behind it or without. -/
inductive Idle : Path → Prop where
  | nil : Idle []
  | slash {t : Path} : Idle t → Idle (t ++ ['/'])
  | dot {t : Path} : Idle t → Idle (t ++ ['/', '.'])

/-- A part of a path that can be the name of a file. -/
structure IsName (name : Path) : Prop where
  ne_nil : name ≠ []
  apart : '/' ∉ name
  ne_dot : name ≠ ['.']
  ne_dots : name ≠ ['.', '.']

structure Named (p dir name tail : Path) : Prop where
  eq : p = dir ++ name ++ tail
  folder : dir = [] ∨ dir.getLast? = some '/'
  isName : IsName name
  idle : Idle tail

variable {p q dir name tail x : Path}

namespace Idle

theorem trimReversed_append (h : Idle tail) (r : Path) :
    trimReversed (tail.reverse ++ r) = trimReversed r := by
  induction h with
  | nil => rfl
  | slash _ ih =>
    rw [List.reverse_append, List.append_assoc]
    exact ih
  | dot _ ih =>
    rw [List.reverse_append, List.append_assoc]
    exact ih

theorem of_prefix (h : Idle tail) (hx : x <+: tail) : Idle x := by
  induction h with
  | nil =>
    rw [List.prefix_nil.mp hx]
    exact .nil
  | slash ht ih =>
    rcases List.prefix_concat_iff.mp hx with rfl | hx
    · exact .slash ht
    · exact ih hx
  | @dot t ht ih =>
    rw [List.append_cons t '/' ['.']] at hx
    rcases List.prefix_concat_iff.mp hx with rfl | hx
    · rw [List.append_assoc]
      exact .dot ht
    · rcases List.prefix_concat_iff.mp hx with rfl | hx
      · exact .slash ht
      · exact ih hx

theorem partsOf_append (h : Idle tail) (x : Path) :
    ∃ dots, OnlyDots dots ∧ partsOf (x ++ tail) = partsOf x ++ dots := by
  induction h with
  | nil => exact ⟨[], List.forall_mem_nil _, by rw [List.append_nil, List.append_nil]⟩
  | slash _ ih =>
    obtain ⟨dots, hdots, hx⟩ := ih
    refine ⟨dots, hdots, ?_⟩
    rw [← List.append_assoc, partsOf_append_cons, hx, partsOf_nil, List.append_nil]
  | dot _ ih =>
    obtain ⟨dots, hdots, hx⟩ := ih
    refine ⟨dots ++ [['.']], hdots.append (by simp [OnlyDots]), ?_⟩
    rw [← List.append_assoc, partsOf_append_cons, hx, List.append_assoc]
    rfl

theorem last (h : Idle tail) (hne : tail ≠ []) : tail.getLast? = some '/' ∨ ∃ r, tail = r ++ ['/', '.'] := by
  cases h with
  | nil => exact absurd rfl hne
  | slash => exact Or.inl List.getLast?_concat
  | dot => exact Or.inr ⟨_, rfl⟩

end Idle

/-- What is taken off the end of a body does not count, unless nothing is left of it. -/
theorem exists_idle (r : Path) (h : trimReversed r ≠ []) :
    ∃ tail, Idle tail ∧ r.reverse = (trimReversed r).reverse ++ tail := by
  induction r using trimReversed.induct with
  | case1 r ih =>
    rw [trimReversed] at h ⊢
    obtain ⟨tail, htail, hr⟩ := ih h
    exact ⟨tail ++ ['/'], .slash htail, by rw [List.reverse_cons, hr, List.append_assoc]⟩
  | case2 => exact absurd rfl h
  | case3 r ih =>
    rw [trimReversed] at h ⊢
    obtain ⟨tail, htail, hr⟩ := ih h
    refine ⟨tail ++ ['/', '.'], .dot htail, ?_⟩
    rw [List.reverse_cons, List.reverse_cons, hr]
    simp
  | case4 r hslash hdot hdots =>
    rw [Trimmed.eq ⟨hslash, hdot, hdots⟩]
    exact ⟨[], .nil, (List.append_nil _).symm⟩

theorem IsName.start_eq_nil (h : IsName name) : start name = [] := by
  have hroot : ∀ r, name ≠ '/' :: r := by
    rintro r rfl
    exact h.apart List.mem_cons_self
  refine start_eq_nil_iff.mpr ⟨hroot, h.ne_dot, ?_⟩
  rintro r rfl
  exact h.apart (by simp)

/-- How a path starts is settled by any of it but for a single dot. -/
theorem start_append (hne : p ≠ []) (hdot : p ≠ ['.']) (y : Path) : start (p ++ y) = start p := by
  cases p with
  | nil => exact absurd rfl hne
  | cons c r =>
    cases r with
    | nil => unfold start; split <;> split <;> simp_all
    | cons d r => unfold start; split <;> split <;> simp_all

theorem start_append_slash (hne : p ≠ []) (y : Path) : start (p ++ '/' :: y) = start p := by
  by_cases hdot : p = ['.']
  · rw [hdot]
    rfl
  · exact start_append hne hdot _

theorem start_append_of_slash (hdir : dir.getLast? = some '/') (y : Path) :
    start (dir ++ y) = start dir := by
  obtain ⟨d, rfl⟩ := List.getLast?_eq_some_iff.mp hdir
  rw [List.append_assoc]
  exact start_append_cons d _ _

theorem parts_append_slash (hne : p ≠ []) : parts (p ++ ['/']) = parts p := by
  rw [parts_eq, parts_eq, start_append_slash hne, partsOf_append_cons, partsOf_nil, List.append_nil]

namespace Named
variable (h : Named p dir name tail)
include h

theorem beforeLast_eq : beforeLast (dir ++ name) = dir :=
  Template.folder_eq ⟨name, rfl, h.isName.apart, h.folder⟩

theorem lastPart_eq : lastPart (dir ++ name) = name := by
  have hsplit := (beside_beforeLast (dir ++ name)).1
  rw [h.beforeLast_eq] at hsplit
  exact (List.append_cancel_left hsplit).symm

theorem start_eq : start p = start (dir ++ name) := by
  rw [h.eq]
  refine start_append (List.append_ne_nil_of_right_ne_nil dir h.isName.ne_nil) (fun hdot => ?_) tail
  have hlast := h.lastPart_eq
  rw [hdot] at hlast
  exact h.isName.ne_dot hlast.symm

theorem body_eq : body p = body (dir ++ name) ++ tail := by
  have hp : start p ++ body p = start p ++ (body (dir ++ name) ++ tail) := calc
    start p ++ body p = dir ++ name ++ tail := (start_append_body p).trans h.eq
    _ = start (dir ++ name) ++ body (dir ++ name) ++ tail := by rw [start_append_body]
    _ = start p ++ (body (dir ++ name) ++ tail) := by rw [h.start_eq, List.append_assoc]
  exact List.append_cancel_left hp

theorem folder_body :
    dir = start p ++ beforeLast (body (dir ++ name)) ∧ name = lastPart (body (dir ++ name)) := by
  have hdot : lastPart (dir ++ name) ≠ ['.'] := by
    rw [h.lastPart_eq]
    exact h.isName.ne_dot
  obtain ⟨hbefore, hlast⟩ := beforeLast_eq_start_append hdot
  rw [h.beforeLast_eq] at hbefore
  rw [h.lastPart_eq] at hlast
  exact ⟨h.start_eq ▸ hbefore, hlast⟩

theorem core_eq : core p = body (dir ++ name) := by
  have hlast := h.folder_body.2
  have htrimmed : Trimmed (body (dir ++ name)).reverse :=
    trimmed_of_lastPart (hlast ▸ h.isName.ne_nil) (hlast ▸ h.isName.ne_dot)
  rw [core, h.body_eq, trimBody, List.reverse_append, h.idle.trimReversed_append, htrimmed.eq,
    List.reverse_reverse]

theorem fileName : fileName? p = some name := by
  rw [fileName?, h.core_eq, ← h.folder_body.2]
  simp [h.isName.ne_nil, h.isName.ne_dots]

/-- The text in front of the name, as it is found from the start and the core of the path. -/
theorem folder_eq : start p ++ beforeLast (core p) = dir := by
  rw [h.core_eq]
  exact h.folder_body.1.symm

theorem start_folder : start p = start dir := by
  rcases h.folder with rfl | hslash
  · rw [h.start_eq, List.nil_append, h.isName.start_eq_nil]
    rfl
  · rw [h.eq, List.append_assoc, start_append_of_slash hslash]

theorem parts : parts p = Path.parts dir ++ [.name name] := by
  obtain ⟨dots, hdots, htail⟩ := h.idle.partsOf_append (dir ++ name)
  have hname : counted [name] = [.name name] := by
    simp [counted, h.isName.ne_dot, h.isName.ne_dots]
  rw [parts_eq, parts_eq, h.start_folder, h.eq, htail, partsOf_append_of_slash h.folder,
    partsOf_of_not_mem h.isName.apart h.isName.ne_nil, counted_append, counted_append, hname,
    counted_eq_nil hdots, List.append_nil, List.append_assoc]

/-- The parent of a path is its folder, written without what does not count. -/
theorem exists_parent : ∃ q, parent? p = some q ∧ Path.parts q = Path.parts dir := by
  have hplain : Named (dir ++ name) dir name [] :=
    ⟨(List.append_nil _).symm, h.folder, h.isName, .nil⟩
  have hparent : parent? p = parent? (dir ++ name) := by
    rw [parent?, parent?, h.core_eq, hplain.core_eq, h.start_eq]
  obtain ⟨q, dots, hq⟩ := exists_hasParent (p := dir ++ name)
    (by rw [h.lastPart_eq]; exact h.isName.ne_nil) (by rw [h.lastPart_eq]; exact h.isName.ne_dot)
  refine ⟨q, hparent.trans hq.parent, ?_⟩
  by_cases hne : q = []
  · rw [hne, ← h.beforeLast_eq, hq.nil_iff.mp hne]
  · have hparts := hq.partsOf_eq
    rw [h.beforeLast_eq] at hparts
    apply parts_congr
    · rw [← start_append_slash hne [], hq.start_eq hne, ← h.start_eq, h.start_folder]
    · rw [hparts, counted_append, counted_eq_nil hq.onlyDots, List.append_nil]

end Named

theorem exists_named (h : fileName? p = some name) : ∃ dir tail, Named p dir name tail := by
  rw [fileName?] at h
  split at h
  next => cases h
  next hname =>
    simp only [Bool.or_eq_true, List.isEmpty_iff, decide_eq_true_eq, not_or] at hname
    obtain rfl := Option.some.inj h
    obtain ⟨hcore, happart, hends⟩ := beside_beforeLast (core p)
    have hne : trimReversed (body p).reverse ≠ [] := by
      intro hnil
      have hc : core p = [] := by rw [core, trimBody, hnil]; rfl
      rw [hc] at hname
      exact hname.1 rfl
    obtain ⟨tail, htail, hbody⟩ := exists_idle _ hne
    rw [List.reverse_reverse] at hbody
    have hbody : body p = core p ++ tail := hbody
    have htrimmed : Trimmed (core p).reverse := by
      rw [core, trimBody, List.reverse_reverse]
      exact trimmed_trimReversed _
    refine ⟨start p ++ beforeLast (core p), tail, ?_, ?_, ⟨hname.1, happart, ?_, hname.2⟩, htail⟩
    · rw [List.append_assoc (start p), ← hcore, List.append_assoc, ← hbody, start_append_body]
    · rcases hends with hnil | hslash
      · rw [hnil, List.append_nil]
        rcases start_cases p with ⟨hs, _⟩ | ⟨hs, _, hb⟩ | ⟨hs, _⟩
        · exact Or.inr (by rw [hs]; rfl)
        · -- A dot at the start stands before a slash, and a name does not hold one.
          rw [hnil, List.nil_append] at hcore
          obtain ⟨c, r, hr⟩ := List.exists_cons_of_ne_nil hname.1
          rw [hbody, hcore, hr] at hb
          rcases hb with hb | hb
          · cases hb
          · rw [hr] at happart
            obtain rfl : c = '/' := by simpa using hb
            exact absurd List.mem_cons_self happart
        · exact Or.inl hs
      · exact Or.inr (by rw [List.getLast?_append, hslash]; rfl)
    · intro hdot
      rw [hdot] at hcore
      rcases hends with hnil | hslash
      · rw [hnil, List.nil_append] at hcore
        exact trimBody_ne_dot _ hcore
      · obtain ⟨d, hd⟩ := List.getLast?_eq_some_iff.mp hslash
        apply htrimmed.2.2 d.reverse
        rw [hcore, hd]
        simp

/-- The file name of a path is the name that its parts end in. -/
theorem fileName?_eq_some_iff : fileName? p = some name ↔ ∃ ps, parts p = ps ++ [.name name] := by
  constructor
  · intro h
    obtain ⟨dir, tail, hp⟩ := exists_named h
    exact ⟨_, hp.parts⟩
  · rintro ⟨ps, hps⟩
    cases hf : fileName? p with
    | some other =>
      obtain ⟨dir, tail, hp⟩ := exists_named hf
      rw [hp.parts] at hps
      simpa using (List.append_inj' hps rfl).2
    | none =>
      exfalso
      obtain ⟨dots, hdots, hp⟩ := partsOf_eq_core p
      obtain ⟨hcore, happart, hends⟩ := beside_beforeLast (core p)
      rw [parts_eq, hp, counted_append, counted_append, counted_eq_nil hdots,
        counted_eq_nil (onlyDots_start p), List.nil_append, List.append_nil] at hps
      by_cases hc : core p = []
      · rw [hc, partsOf_nil, counted_eq_nil (List.forall_mem_nil _), List.append_nil] at hps
        have hlast : (lead (start p)).getLast? = some (.name name) := by
          rw [hps, List.getLast?_concat]
        rcases start_cases p with ⟨hs, _⟩ | ⟨hs, _⟩ | ⟨hs, _⟩
        · rw [hs] at hlast
          cases hlast
        · rw [hs] at hlast
          cases hlast
        · rw [hs] at hlast
          cases hlast
      · have hup : lastPart (core p) = ['.', '.'] := by
          have htrimmed : Trimmed (core p).reverse := by
            rw [core, trimBody, List.reverse_reverse]
            exact trimmed_trimReversed _
          have hne := lastPart_ne_nil htrimmed hc
          simpa [fileName?, hne] using hf
        rw [hcore, partsOf_append_of_slash hends, hup, counted_append, ← List.append_assoc] at hps
        have hlast := (List.append_inj' hps rfl).2
        cases hlast

theorem fileName?_congr (h : parts p = parts q) : fileName? p = fileName? q := by
  apply Option.ext
  intro name
  rw [fileName?_eq_some_iff, fileName?_eq_some_iff, h]

theorem parts_append_dot (hdir : dir.getLast? = some '/') : parts (dir ++ ['.']) = parts dir := by
  rw [parts_eq, parts_eq, start_append_of_slash hdir, partsOf_append_of_slash (Or.inr hdir),
    counted_append]
  exact congrArg _ (List.append_nil _)

theorem parts_append_up (hdir : dir = [] ∨ dir.getLast? = some '/') :
    parts (dir ++ ['.', '.']) = parts dir ++ [.up] := by
  have hstart : start (dir ++ ['.', '.']) = start dir := by
    rcases hdir with rfl | hslash
    · rfl
    · exact start_append_of_slash hslash _
  rw [parts_eq, parts_eq, hstart, partsOf_append_of_slash hdir, counted_append, List.append_assoc]
  rfl

theorem fileName?_append_up (hdir : dir = [] ∨ dir.getLast? = some '/') :
    fileName? (dir ++ ['.', '.']) = none := by
  rw [Option.eq_none_iff_forall_ne_some]
  intro name hname
  obtain ⟨ps, hps⟩ := fileName?_eq_some_iff.mp hname
  rw [parts_append_up hdir] at hps
  have hlast := (List.append_inj' hps rfl).2
  cases hlast

theorem fileName?_append_dot (hdir : dir = [] ∨ dir.getLast? = some '/') :
    fileName? (dir ++ ['.']) = fileName? dir := by
  rcases hdir with rfl | hslash
  · decide
  · exact fileName?_congr (parts_append_dot hslash)

theorem IsName.isAbsolute_eq_false (h : IsName name) : isAbsolute name = false := by
  obtain ⟨c, r, rfl⟩ := List.exists_cons_of_ne_nil h.ne_nil
  have hc : c ≠ '/' := fun he => h.apart (he ▸ List.mem_cons_self)
  simp [isAbsolute, hc]

/-- A name below a folder stands behind a slash, or starts the path. -/
theorem IsName.exists_join_eq (h : IsName name) (dir : Path) : ∃ front,
    (front = [] ∨ front.getLast? = some '/') ∧ join dir name = front ++ name ∧
      (front = dir ∨ dir ≠ [] ∧ front = dir ++ ['/']) := by
  rw [join, h.isAbsolute_eq_false, if_neg (by simp)]
  split
  next hdir =>
    simp only [Bool.or_eq_true, List.isEmpty_iff, decide_eq_true_eq] at hdir
    exact ⟨dir, hdir, rfl, Or.inl rfl⟩
  next hdir =>
    simp only [Bool.or_eq_true, List.isEmpty_iff, decide_eq_true_eq, not_or] at hdir
    exact ⟨dir ++ ['/'], Or.inr List.getLast?_concat, by simp, Or.inr ⟨hdir.1, rfl⟩⟩

/-- A name below a folder adds itself to the parts of the folder. -/
theorem IsName.parts_join (h : IsName name) (dir : Path) :
    parts (join dir name) = parts dir ++ [.name name] := by
  obtain ⟨front, hfront, hjoin, hdir⟩ := h.exists_join_eq dir
  have hp : Named (join dir name) front name [] := ⟨by rw [hjoin, List.append_nil], hfront, h, .nil⟩
  rw [hp.parts]
  rcases hdir with rfl | ⟨hne, rfl⟩
  · rfl
  · rw [parts_append_slash hne]

theorem IsName.partsOf_join (h : IsName name) (dir : Path) :
    partsOf (join dir name) = partsOf dir ++ [name] := by
  obtain ⟨front, hfront, hjoin, hdir⟩ := h.exists_join_eq dir
  rw [hjoin, partsOf_append_of_slash hfront, partsOf_of_not_mem h.apart h.ne_nil]
  rcases hdir with rfl | ⟨_, rfl⟩
  · rfl
  · rw [partsOf_append_cons, partsOf_nil, List.append_nil]

theorem IsName.isAbsolute_join (h : IsName name) (dir : Path) :
    isAbsolute (join dir name) = isAbsolute dir := by
  by_cases hne : dir = []
  · rw [hne, join, h.isAbsolute_eq_false]
    exact h.isAbsolute_eq_false
  · obtain ⟨front, _, hjoin, hdir⟩ := h.exists_join_eq dir
    refine isAbsolute_prefix_eq ?_ hne
    rw [hjoin]
    rcases hdir with rfl | ⟨_, rfl⟩
    · exact List.prefix_append front name
    · exact (List.prefix_append dir ['/']).trans (List.prefix_append _ name)

end LineMarkup.Path
