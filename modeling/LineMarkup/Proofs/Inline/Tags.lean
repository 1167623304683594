import Mathlib.Data.List.TakeWhile
import LineMarkup.Text.Basic

/-!
Tags in a text, read from left to right with the elements that are open. A start tag opens an element
and an end tag closes the inner one, whose name it has to have; no tag stands inside another. What has
been read once can be read inside of more elements as well.
-/

namespace LineMarkup.Inline

set_option autoImplicit false

/-- The open elements, the inner ones first, and what has been read of the tag at hand, if there is one. -/
structure Reading where
  opened : List Text
  tag : Option Text
deriving DecidableEq, Repr

/-- The open elements after a tag. The name of a start tag ends at a space. -/
def afterTag (opened : List Text) : Text → Option (List Text)
  | '/' :: name => if opened.head? = some name then some opened.tail else none
  | tag => some (tag.takeWhile (· ≠ ' ') :: opened)

namespace Reading

def next : Reading → Char → Option Reading
  | ⟨opened, none⟩, c =>
    if c = '<' then some ⟨opened, some []⟩ else if c = '>' then none else some ⟨opened, none⟩
  | ⟨opened, some tag⟩, c =>
    if c = '<' then none
    else if c = '>' then (afterTag opened tag).map fun opened => ⟨opened, none⟩
    else some ⟨opened, some (tag ++ [c])⟩

def along (r : Reading) (t : Text) : Option Reading := t.foldlM next r

end Reading

/-- A text leads from some open elements to others. -/
def Leads (opened : List Text) (t : Text) (opened' : List Text) : Prop :=
  Reading.along ⟨opened, none⟩ t = some ⟨opened', none⟩

instance (opened : List Text) (t : Text) (opened' : List Text) : Decidable (Leads opened t opened') :=
  inferInstanceAs (Decidable (_ = _))

/-- Tags are nested if all elements are closed, each by an end tag of its own inside of the others. -/
def Nested (t : Text) : Prop := Leads [] t []

instance (t : Text) : Decidable (Nested t) := inferInstanceAs (Decidable (Leads [] t []))

/-- A text in which no tag starts or ends. -/
def Clear (t : Text) : Prop := '<' ∉ t ∧ '>' ∉ t

instance (t : Text) : Decidable (Clear t) := inferInstanceAs (Decidable (_ ∧ _))

def element (name t : Text) : Text := '<' :: (name ++ '>' :: (t ++ '<' :: '/' :: (name ++ ['>'])))

variable {opened opened' inner outer : List Text} {t x y name : Text} {r : Reading} {c : Char}

theorem clear_of_differs {p : Char → Bool} (hc : p c = true) (hlt : p '<' = false)
    (hgt : p '>' = false) : Clear [c] := by
  have hne : ∀ d, p d = false → c ≠ d := by
    rintro d hd rfl
    exact Bool.noConfusion (hc.symm.trans hd)
  simpa [Clear, eq_comm] using And.intro (hne '<' hlt) (hne '>' hgt)

theorem Clear.append (hx : Clear x) (hy : Clear y) : Clear (x ++ y) := by
  simp [Clear, hx.1, hx.2, hy.1, hy.2]

namespace Reading

theorem along_append (r : Reading) (x y : Text) :
    r.along (x ++ y) = (r.along x).bind fun s => s.along y :=
  List.foldlM_append

theorem along_cons (r : Reading) (c : Char) (t : Text) :
    r.along (c :: t) = (r.next c).bind fun s => s.along t :=
  List.foldlM_cons

theorem along_of_clear (h : Clear t) (opened : List Text) :
    along ⟨opened, none⟩ t = some ⟨opened, none⟩ := by
  induction t with
  | nil => rfl
  | cons c t ih =>
    simp only [Clear, List.mem_cons, not_or] at h
    have hnext : next ⟨opened, none⟩ c = some ⟨opened, none⟩ := by
      rw [next, if_neg (Ne.symm h.1.1), if_neg (Ne.symm h.2.1)]
    rw [along_cons, hnext, Option.bind_some, ih ⟨h.1.2, h.2.2⟩]

/-- The text of a tag is taken down up to its end. -/
theorem along_tag (h : Clear t) (opened : List Text) (tag : Text) :
    along ⟨opened, some tag⟩ t = some ⟨opened, some (tag ++ t)⟩ := by
  induction t generalizing tag with
  | nil => rw [List.append_nil]; rfl
  | cons c t ih =>
    simp only [Clear, List.mem_cons, not_or] at h
    have hnext : next ⟨opened, some tag⟩ c = some ⟨opened, some (tag ++ [c])⟩ := by
      rw [next, if_neg (Ne.symm h.1.1), if_neg (Ne.symm h.2.1)]
    rw [along_cons, hnext, Option.bind_some, ih ⟨h.1.2, h.2.2⟩, List.append_assoc,
      List.singleton_append]

theorem along_open (h : Clear t) (opened : List Text) :
    along ⟨opened, none⟩ ('<' :: t) = some ⟨opened, some t⟩ := by
  rw [along_cons, next, if_pos rfl, Option.bind_some, along_tag h, List.nil_append]

/-- Where a tag ends, it is settled what it opens or closes. -/
theorem along_whole (h : Clear t) (opened : List Text) :
    along ⟨opened, none⟩ ('<' :: (t ++ ['>'])) =
      (afterTag opened t).map fun opened => ⟨opened, none⟩ := by
  rw [← List.cons_append, along_append, along_open h, Option.bind_some, along_cons, next,
    if_neg (by decide), if_pos rfl]
  cases afterTag opened t <;> rfl

theorem afterTag_below (h : afterTag opened t = some opened') (outer : List Text) :
    afterTag (opened ++ outer) t = some (opened' ++ outer) := by
  unfold afterTag at h ⊢
  split at h
  next name =>
    split at h
    next hhead =>
      obtain ⟨rest, rfl⟩ := List.head?_eq_some_iff.mp hhead
      rw [Option.some.injEq, List.tail_cons] at h
      rw [← h]
      exact if_pos rfl
    next => cases h
  next => rw [← Option.some.inj h, List.cons_append]

/-- Elements further out do not change what is read. -/
theorem next_below {s : Reading} (h : r.next c = some s) (outer : List Text) :
    next ⟨r.opened ++ outer, r.tag⟩ c = some ⟨s.opened ++ outer, s.tag⟩ := by
  obtain ⟨opened, tag⟩ := r
  cases tag with
  | none =>
    rw [next] at h ⊢
    split at h
    next hlt =>
      rw [if_pos hlt, ← Option.some.inj h]
    next hlt =>
      split at h
      next => cases h
      next hgt => rw [if_neg hlt, if_neg hgt, ← Option.some.inj h]
  | some tag =>
    rw [next] at h ⊢
    split at h
    next => cases h
    next hlt =>
      split at h
      next hgt =>
        obtain ⟨opened', ha, rfl⟩ := Option.map_eq_some_iff.mp h
        rw [if_neg hlt, if_pos hgt, afterTag_below ha, Option.map_some]
      next hgt => rw [if_neg hlt, if_neg hgt, ← Option.some.inj h]

theorem along_below {s : Reading} (h : r.along t = some s) (outer : List Text) :
    along ⟨r.opened ++ outer, r.tag⟩ t = some ⟨s.opened ++ outer, s.tag⟩ := by
  induction t generalizing r with
  | nil =>
    obtain rfl := Option.some.inj h
    rfl
  | cons c t ih =>
    rw [along_cons] at h ⊢
    obtain ⟨r', hr, h⟩ := Option.bind_eq_some_iff.mp h
    rw [next_below hr, Option.bind_some]
    exact ih h

end Reading

open Reading

namespace Leads

theorem below (h : Leads opened t opened') (outer : List Text) :
    Leads (opened ++ outer) t (opened' ++ outer) := along_below h outer

theorem append_iff (h : Leads opened x inner) : Leads opened (x ++ y) opened' ↔ Leads inner y opened' := by
  rw [Leads, along_append, h]
  rfl

end Leads

theorem leads_of_clear (h : Clear t) (opened : List Text) : Leads opened t opened :=
  along_of_clear h opened

theorem leads_cons_iff (hc : Clear [c]) : Leads opened (c :: t) opened' ↔ Leads opened t opened' :=
  (leads_of_clear hc opened).append_iff

theorem leads_nil_iff : Leads opened [] opened' ↔ opened = opened' := by
  simp [Leads, along]

theorem leads_tag (h : Clear t) (ha : afterTag opened t = some opened') :
    Leads opened ('<' :: (t ++ ['>'])) opened' := by
  rw [Leads, along_whole h, ha, Option.map_some]

/-- An end tag is read exactly if the element of its name is the inner one. -/
theorem leads_endTag_iff (hname : Clear name) :
    Leads opened (x ++ '<' :: '/' :: (name ++ '>' :: y)) opened' ↔
      ∃ inner, Leads opened x (name :: inner) ∧ Leads inner y opened' := by
  have hend : '<' :: '/' :: (name ++ '>' :: y) = '<' :: (('/' :: name) ++ ['>']) ++ y := by simp
  have hclear : Clear ('/' :: name) := by simpa [Clear] using hname
  constructor
  · intro h
    rw [Leads, along_append] at h
    obtain ⟨⟨inside, tag⟩, hx, h⟩ := Option.bind_eq_some_iff.mp h
    cases tag with
    | some tag => cases h
    | none =>
      rw [hend, along_append, along_whole hclear, Option.bind_map, afterTag] at h
      split at h
      next hhead =>
        obtain ⟨inner, rfl⟩ := List.head?_eq_some_iff.mp hhead
        exact ⟨inner, hx, h⟩
      next => cases h
  · rintro ⟨inner, hx, hy⟩
    have hpop : afterTag (name :: inner) ('/' :: name) = some inner := if_pos rfl
    rw [hx.append_iff, hend, (leads_tag hclear hpop).append_iff]
    exact hy

theorem leads_endTag_append_iff {endTag : Text} (hname : Clear name)
    (hend : endTag = '<' :: '/' :: (name ++ ['>'])) :
    Leads opened (endTag ++ y) opened' ↔ ∃ inner, opened = name :: inner ∧ Leads inner y opened' := by
  have htext : endTag ++ y = [] ++ '<' :: '/' :: (name ++ '>' :: y) := by simp [hend]
  rw [htext, leads_endTag_iff hname]
  simp only [leads_nil_iff]

theorem leads_startTag (name : Text) (hname : Clear name) (hspace : ' ' ∉ name) (hslash : '/' ∉ name)
    (opened : List Text) : Leads opened ('<' :: (name ++ ['>'])) (name :: opened) := by
  apply leads_tag hname
  have htake : name.takeWhile (· ≠ ' ') = name := by
    rw [List.takeWhile_eq_self_iff]
    intro c hc
    exact decide_eq_true fun he => hspace (he ▸ hc)
  unfold afterTag
  split
  next => exact absurd List.mem_cons_self hslash
  next => rw [htake]

/-- An element by its start tag and its end tag, as they are written. -/
theorem element_eq {startTag endTag : Text} (hstart : startTag = '<' :: (name ++ ['>']))
    (hend : endTag = '<' :: '/' :: (name ++ ['>'])) (t : Text) :
    startTag ++ t ++ endTag = element name t := by
  simp [hstart, hend, element]

/-- An element is closed exactly if what is in it leads back to it. -/
theorem leads_element_iff (hname : Clear name) (hspace : ' ' ∉ name) (hslash : '/' ∉ name) :
    Leads opened (element name x ++ y) opened' ↔
      ∃ inner, Leads (name :: opened) x (name :: inner) ∧ Leads inner y opened' := by
  have htext : element name x ++ y =
      '<' :: (name ++ ['>']) ++ (x ++ '<' :: '/' :: (name ++ '>' :: y)) := by
    simp [element]
  rw [htext, (leads_startTag name hname hspace hslash opened).append_iff, leads_endTag_iff hname]

/-- No tag starts inside of another. -/
theorem not_leads_inside (hx : Clear x) : ¬ Leads opened ('<' :: (x ++ '<' :: y)) opened' := by
  intro h
  rw [Leads, ← List.cons_append, along_append, along_open hx] at h
  cases h

end LineMarkup.Inline
