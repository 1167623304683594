import LineMarkup.Proofs.Document.Line
import Mathlib.Data.List.SplitBy

/-!
Runs of lines. The lines of a source fall in one way into maximal runs of paragraph text and of other
lines. Tagging puts a pair of tags around each run of the first kind and nothing else, and it can be
undone on the tagged lines alone, since a run together with its tags is a run again.
-/

namespace LineMarkup.Paragraph

set_option autoImplicit false

/-- The kind of a run: paragraph text or not. -/
def isText (run : List Line) : Bool := run.all Line.isParagraph

/-- A source cut into runs: within a run all lines are paragraph text or none is, and two runs that are
next to each other are of different kinds. -/
structure CutsInto (source : List Line) (rs : List (List Line)) : Prop where
  flatten : rs.flatten = source
  nonempty : [] ∉ rs
  alike : ∀ run ∈ rs, ∀ line ∈ run, line.isParagraph = isText run
  maximal : rs.IsChain fun run next => isText run ≠ isText next

def runs (source : List Line) : List (List Line) :=
  source.splitBy fun a b => a.isParagraph == b.isParagraph

/-- A run of paragraph text with its tags; any other run as it is. -/
def wrap (run : List Line) : List Line :=
  if isText run then openTag :: run ++ [closeTag] else run

/-- A line of the tagged lines, by where it comes from. -/
inductive Entry where
  | opening
  | own (line : Line)
  | closing
deriving DecidableEq, Repr

namespace Entry

def line : Entry → Line
  | opening => openTag
  | own line => line
  | closing => closeTag

def own? : Entry → Option Line
  | own line => some line
  | _ => none

def isTag (e : Entry) : Bool := e.own?.isNone

end Entry

def entries (run : List Line) : List Entry :=
  if isText run then .opening :: run.map .own ++ [.closing] else run.map .own

/-- Takes the first and the last line off a run of paragraph text. -/
def unwrap (run : List Line) : List Line := if isText run then run.tail.dropLast else run

def untag (lines : List Line) : List Line := (runs lines).flatMap unwrap

variable {source run next : List Line} {rs : List (List Line)}

theorem isText_cons (line : Line) (run : List Line) :
    isText (line :: run) = (line.isParagraph && isText run) := rfl

/-- Lines that are alike from one to the next are all of the kind of their run. -/
theorem isChain_alike_iff (hne : run ≠ []) :
    (run.IsChain fun a b => (a.isParagraph == b.isParagraph) = true) ↔
      ∀ line ∈ run, line.isParagraph = isText run := by
  induction run with
  | nil => exact absurd rfl hne
  | cons a more ih =>
    cases more with
    | nil => simp [isText]
    | cons b more =>
      rw [List.isChain_cons_cons, ih (List.cons_ne_nil b more), beq_iff_eq, isText_cons a]
      constructor
      · rintro ⟨hab, h⟩
        have hb := h b List.mem_cons_self
        rw [hab, hb, Bool.and_self]
        exact List.forall_mem_cons.mpr ⟨hab.trans hb, h⟩
      · intro h
        obtain ⟨ha, hmore⟩ := List.forall_mem_cons.mp h
        have hb := hmore b List.mem_cons_self
        refine ⟨ha.trans hb.symm, ?_⟩
        have hk : (a.isParagraph && isText (b :: more)) = isText (b :: more) := by
          cases hkind : a.isParagraph with
          | true => rfl
          | false =>
            have hbf : b.isParagraph = false := by rw [hb, hkind]; rfl
            rw [isText_cons b, hbf]
            rfl
        rwa [hk] at hmore

theorem last_ne_head_iff (hrun : run ≠ []) (hnext : next ≠ [])
    (hr : ∀ line ∈ run, line.isParagraph = isText run)
    (hn : ∀ line ∈ next, line.isParagraph = isText next) :
    (∃ ha hb, ((run.getLast ha).isParagraph == (next.head hb).isParagraph) = false) ↔
      isText run ≠ isText next := by
  have hlast := hr _ (List.getLast_mem hrun)
  have hhead := hn _ (List.head_mem hnext)
  constructor
  · rintro ⟨_, _, h⟩
    rwa [hlast, hhead, beq_eq_false_iff_ne] at h
  · intro h
    exact ⟨hrun, hnext, by rwa [hlast, hhead, beq_eq_false_iff_ne]⟩

/-- There is one cut into runs. -/
theorem cutsInto_iff : CutsInto source rs ↔ rs = runs source := by
  have hmaximal : (∀ run ∈ rs, run ≠ []) →
      (∀ run ∈ rs, ∀ line ∈ run, line.isParagraph = isText run) →
      ((rs.IsChain fun run next =>
        ∃ ha hb, ((run.getLast ha).isParagraph == (next.head hb).isParagraph) = false) ↔
      rs.IsChain fun run next => isText run ≠ isText next) := by
    intro hne halike
    apply List.IsChain.iff_of_mem_imp
    intro run next hrun hnext
    exact last_ne_head_iff (hne run hrun) (hne next hnext) (halike run hrun) (halike next hnext)
  rw [eq_comm, runs, List.splitBy_eq_iff]
  constructor
  · intro h
    have hne : ∀ run ∈ rs, run ≠ [] := fun run hrun he => h.nonempty (he ▸ hrun)
    refine ⟨h.flatten.symm, h.nonempty, ?_, (hmaximal hne h.alike).mpr h.maximal⟩
    exact fun run hrun => (isChain_alike_iff (hne run hrun)).mpr (h.alike run hrun)
  · rintro ⟨hflatten, hnil, hchain, hmax⟩
    have hne : ∀ run ∈ rs, run ≠ [] := fun run hrun he => hnil (he ▸ hrun)
    have halike : ∀ run ∈ rs, ∀ line ∈ run, line.isParagraph = isText run :=
      fun run hrun => (isChain_alike_iff (hne run hrun)).mp (hchain run hrun)
    exact ⟨hflatten.symm, hnil, halike, (hmaximal hne halike).mp hmax⟩

/-- The lines that follow a run start with one of the other kind. -/
theorem CutsInto.head_ne (h : CutsInto source (run :: rs)) :
    ∀ line ∈ rs.flatten.head?, line.isParagraph = !isText run := by
  cases rs with
  | nil => simp
  | cons next rs =>
    intro line hline
    have hnext : next ≠ [] := fun he => h.nonempty (by simp [he])
    obtain ⟨first, more, rfl⟩ := List.exists_cons_of_ne_nil hnext
    obtain rfl : first = line := by simpa using hline
    have hkind := h.alike (first :: more) (by simp) first List.mem_cons_self
    have hmax := (List.isChain_cons_cons.mp h.maximal).1
    rw [hkind]
    exact Bool.eq_not_of_ne (Ne.symm hmax)

theorem CutsInto.tail (h : CutsInto source (run :: rs)) : CutsInto rs.flatten rs where
  flatten := rfl
  nonempty := fun hm => h.nonempty (List.mem_cons_of_mem run hm)
  alike := fun next hm => h.alike next (List.mem_cons_of_mem run hm)
  maximal := h.maximal.tail

theorem wrap_of_isText (h : isText run = true) : wrap run = openTag :: run ++ [closeTag] := by
  rw [wrap, if_pos h]

theorem wrap_of_other (h : isText run = false) : wrap run = run := by
  rw [wrap, if_neg (by simp [h])]

theorem CutsInto.tag_eq (h : CutsInto source rs) : tag source = rs.flatMap wrap := by
  induction rs generalizing source with
  | nil =>
    obtain rfl : [] = source := h.flatten
    rfl
  | cons run rs ih =>
    obtain rfl : run ++ rs.flatten = source := h.flatten
    have halike := h.alike run List.mem_cons_self
    have hhead := h.head_ne
    rw [List.flatMap_cons, ← ih h.tail]
    cases hkind : isText run with
    | true =>
      rw [hkind] at halike hhead
      have hrun : run ≠ [] := fun he => h.nonempty (by simp [he])
      rw [wrap_of_isText hkind, tag_append_of_text hrun halike hhead]
      simp
    | false =>
      rw [hkind] at halike
      rw [wrap_of_other hkind, tag_append_of_other halike rs.flatten]

theorem forall_mem_wrap (h : ∀ line ∈ run, line.isParagraph = isText run) :
    ∀ line ∈ wrap run, line.isParagraph = isText run := by
  cases hkind : isText run with
  | true =>
    rw [hkind] at h
    rw [wrap_of_isText hkind]
    intro line hline
    simp only [List.cons_append, List.mem_cons, List.mem_append, List.not_mem_nil, or_false] at hline
    rcases hline with rfl | hline | rfl
    · decide
    · exact h line hline
    · decide
  | false => rwa [wrap_of_other hkind, ← hkind]

theorem wrap_ne_nil (h : run ≠ []) : wrap run ≠ [] := by
  cases hkind : isText run with
  | true => simp [wrap_of_isText hkind]
  | false => rwa [wrap_of_other hkind]

theorem isText_wrap (h : ∀ line ∈ run, line.isParagraph = isText run) :
    isText (wrap run) = isText run := by
  cases hkind : isText run with
  | true =>
    rw [isText, List.all_eq_true]
    intro line hline
    rw [forall_mem_wrap h line hline, hkind]
  | false => rw [wrap_of_other hkind, hkind]

/-- A run with its tags is a run of the tagged lines. -/
theorem CutsInto.wrapped (h : CutsInto source rs) : CutsInto (tag source) (rs.map wrap) where
  flatten := by rw [h.tag_eq, List.flatMap]
  nonempty := by
    intro hm
    obtain ⟨run, hrun, hnil⟩ := List.mem_map.mp hm
    exact wrap_ne_nil (fun he => h.nonempty (he ▸ hrun)) hnil
  alike := by
    intro wrapped hm
    obtain ⟨run, hrun, rfl⟩ := List.mem_map.mp hm
    rw [isText_wrap (h.alike run hrun)]
    exact forall_mem_wrap (h.alike run hrun)
  maximal := by
    rw [List.isChain_map]
    apply h.maximal.imp_of_mem_imp
    intro run next hrun hnext hne
    rwa [isText_wrap (h.alike run hrun), isText_wrap (h.alike next hnext)]

theorem unwrap_wrap (h : ∀ line ∈ run, line.isParagraph = isText run) : unwrap (wrap run) = run := by
  cases hkind : isText run with
  | true =>
    rw [unwrap, if_pos (by rw [isText_wrap h, hkind]), wrap_of_isText hkind]
    simp
  | false => rw [unwrap, if_neg (by simp [isText_wrap h, hkind]), wrap_of_other hkind]

theorem CutsInto.untag_tag (h : CutsInto source rs) : untag (tag source) = source := by
  have hunwrap : (rs.map wrap).map unwrap = rs := by
    rw [List.map_map]
    exact (List.map_congr_left fun run hrun => unwrap_wrap (h.alike run hrun)).trans (List.map_id rs)
  rw [untag, ← cutsInto_iff.mp h.wrapped, List.flatMap, hunwrap, h.flatten]

theorem length_flatMap_wrap (rs : List (List Line)) :
    (rs.flatMap wrap).length = rs.flatten.length + 2 * rs.countP isText := by
  induction rs with
  | nil => rfl
  | cons run rs ih =>
    rw [List.flatMap_cons, List.length_append, ih, List.flatten_cons, List.length_append]
    cases hkind : isText run with
    | true =>
      rw [wrap_of_isText hkind, List.countP_cons_of_pos hkind]
      simp only [List.length_append, List.length_cons, List.length_nil]
      omega
    | false =>
      rw [wrap_of_other hkind, List.countP_cons_of_neg (by simp [hkind])]
      omega

theorem map_line_entries (run : List Line) : (entries run).map Entry.line = wrap run := by
  have hown : (run.map Entry.own).map Entry.line = run := by
    rw [List.map_map]
    exact List.map_id run
  rw [entries, wrap]
  split
  · rw [List.cons_append, List.map_cons, List.map_append, hown]
    rfl
  · exact hown

theorem filterMap_own?_entries (run : List Line) : (entries run).filterMap Entry.own? = run := by
  have hown : (run.map Entry.own).filterMap Entry.own? = run := by
    rw [List.filterMap_map]
    exact List.filterMap_some
  rw [entries]
  split
  · rw [List.cons_append, List.filterMap_cons, List.filterMap_append, hown]
    exact List.append_nil run
  · exact hown

theorem filter_isTag_entries (run : List Line) :
    (entries run).filter Entry.isTag = if isText run then [.opening, .closing] else [] := by
  have hown : (run.map Entry.own).filter Entry.isTag = [] := by
    rw [List.filter_eq_nil_iff]
    rintro e he
    obtain ⟨line, _, rfl⟩ := List.mem_map.mp he
    simp [Entry.isTag, Entry.own?]
  rw [entries]
  split
  · rw [List.cons_append, List.filter_cons, List.filter_append, hown]
    rfl
  · exact hown

/-- Of the entries of several runs the tags are an opening and a closing one by turns. -/
theorem filter_isTag_flatMap_entries (rs : List (List Line)) :
    (rs.flatMap entries).filter Entry.isTag =
      (List.replicate (rs.countP isText) [.opening, .closing]).flatten := by
  induction rs with
  | nil => rfl
  | cons run rs ih =>
    rw [List.flatMap_cons, List.filter_append, ih, filter_isTag_entries]
    cases hkind : isText run with
    | true => rw [List.countP_cons_of_pos hkind, List.replicate_succ, List.flatten_cons, if_pos rfl]
    | false => rw [List.countP_cons_of_neg (by simp [hkind]), if_neg (by simp), List.nil_append]

/-- Tagging leaves runs of other lines as they are and puts a pair of tags around every run of
paragraph text. Tags open and close by turns, and without them the source is left, whatever its own
lines read. -/
theorem tag_runs (source : List Line) :
    ∃ rs, (∀ rs', CutsInto source rs' ↔ rs' = rs) ∧
      tag source = rs.flatMap wrap ∧
      (tag source).length = source.length + 2 * rs.countP isText ∧
      tag source = (rs.flatMap entries).map Entry.line ∧
      (rs.flatMap entries).filter Entry.isTag =
        (List.replicate (rs.countP isText) [.opening, .closing]).flatten ∧
      (rs.flatMap entries).filterMap Entry.own? = source ∧
      untag (tag source) = source := by
  have h : CutsInto source (runs source) := cutsInto_iff.mpr rfl
  refine ⟨runs source, fun _ => cutsInto_iff, h.tag_eq, ?_, ?_,
    filter_isTag_flatMap_entries _, ?_, h.untag_tag⟩
  · rw [h.tag_eq, length_flatMap_wrap, h.flatten]
  · rw [h.tag_eq, List.map_flatMap]
    simp only [map_line_entries]
  · rw [List.filterMap_flatMap]
    simp only [filterMap_own?_entries]
    rw [List.flatMap_id', h.flatten]

/-- Lines that read like tags are paragraph text themselves. -/
example : untag (["<p>", "<p>", "</p>", "", "<p>", "</p>", "</p>"].map String.toList) =
    ["<p>", "", "</p>"].map String.toList := by decide

end LineMarkup.Paragraph
