import LineMarkup.Proofs.Document.Values

/-!
Documents as blocks. The lines of a source fall in one way into maximal runs of paragraph text and
single lines of other kinds. Tags stand around the runs and nowhere else, and what is rendered is the
HTML of the blocks, one after the other.
-/

namespace LineMarkup

set_option autoImplicit false

inductive Block where
  | paragraph (lines : List Line)
  | single (line : Line)
deriving DecidableEq, Repr

namespace Block

/-- The lines of a block with the tags around them. -/
def tagged : Block → List Line
  | .paragraph lines => Paragraph.openTag :: lines ++ [Paragraph.closeTag]
  | .single line => [line]

/-- A paragraph comes out with one line for each of its own, between two tags. Any other line comes out
as its HTML, unless it declares a variable or its HTML is empty. -/
def html : Block → List Text
  | .paragraph lines => Paragraph.openTag :: lines.map Inline.convert ++ [Paragraph.closeTag]
  | .single line =>
    if (Declaration.parse? line).isSome || (Inline.convert line).isEmpty then []
    else [Inline.convert line]

/-- The blocks of a line and what follows it. -/
def cons (line : Line) (blocks : List Block) : List Block :=
  if line.isParagraph then
    match blocks with
    | .paragraph lines :: rest => .paragraph (line :: lines) :: rest
    | _ => .paragraph [line] :: blocks
  else .single line :: blocks

end Block

def blocks (source : List Line) : List Block := source.foldr Block.cons []

/-- A source taken apart into runs of paragraph text, none of them empty and none of them followed by
more paragraph text, and single lines that are no paragraph text. -/
inductive FallsInto : List Line → List Block → Prop where
  | nil : FallsInto [] []
  | single {line : Line} {rest : List Line} {bs : List Block} : line.isParagraph = false →
      FallsInto rest bs → FallsInto (line :: rest) (.single line :: bs)
  | run {lines rest : List Line} {bs : List Block} : lines ≠ [] →
      (∀ line ∈ lines, line.isParagraph = true) →
      (∀ line ∈ rest.head?, line.isParagraph = false) →
      FallsInto rest bs → FallsInto (lines ++ rest) (.paragraph lines :: bs)

variable {source lines rest : List Line} {bs : List Block} {line : Line}

/-- Blocks to which a paragraph line in front of them does not belong. -/
def StartsApart (bs : List Block) : Prop := bs = [] ∨ ∃ line rest, bs = .single line :: rest

theorem FallsInto.startsApart (h : FallsInto rest bs)
    (hr : ∀ line ∈ rest.head?, line.isParagraph = false) : StartsApart bs := by
  cases h with
  | nil => exact Or.inl rfl
  | single _ _ => exact Or.inr ⟨_, _, rfl⟩
  | @run lines _ _ hne hpar _ _ =>
    obtain ⟨line, more, rfl⟩ := List.exists_cons_of_ne_nil hne
    have hline := hpar line List.mem_cons_self
    rw [hr line rfl] at hline
    exact absurd hline (by decide)

theorem Block.cons_of_other (h : line.isParagraph = false) (bs : List Block) :
    Block.cons line bs = .single line :: bs := by
  simp [Block.cons, h]

theorem Block.cons_paragraph (h : line.isParagraph = true) (lines : List Line) (bs : List Block) :
    Block.cons line (.paragraph lines :: bs) = .paragraph (line :: lines) :: bs := by
  simp [Block.cons, h]

theorem StartsApart.cons (h : StartsApart bs) (hline : line.isParagraph = true) :
    Block.cons line bs = .paragraph [line] :: bs := by
  rcases h with rfl | ⟨other, rest, rfl⟩
  · simp [Block.cons, hline]
  · simp [Block.cons, hline]

theorem StartsApart.foldr_cons (h : StartsApart bs) (hne : lines ≠ [])
    (hpar : ∀ line ∈ lines, line.isParagraph = true) :
    lines.foldr Block.cons bs = .paragraph lines :: bs := by
  induction lines with
  | nil => exact absurd rfl hne
  | cons line more ih =>
    obtain ⟨hline, hmore⟩ := List.forall_mem_cons.mp hpar
    rw [List.foldr_cons]
    cases more with
    | nil => exact h.cons hline
    | cons next more => rw [ih (List.cons_ne_nil next more) hmore, Block.cons_paragraph hline]

theorem FallsInto.eq_blocks (h : FallsInto source bs) : bs = blocks source := by
  induction h with
  | nil => rfl
  | single hline _ ih => rw [blocks, List.foldr_cons, ← blocks, ← ih, Block.cons_of_other hline]
  | run hne hpar hr h ih =>
    rw [blocks, List.foldr_append, ← blocks, ← ih, (h.startsApart hr).foldr_cons hne hpar]

theorem fallsInto_blocks (source : List Line) : FallsInto source (blocks source) := by
  induction source with
  | nil => exact .nil
  | cons line rest ih =>
    rw [blocks, List.foldr_cons, ← blocks]
    generalize blocks rest = bs at ih
    cases hline : line.isParagraph with
    | false =>
      rw [Block.cons_of_other hline]
      exact .single hline ih
    | true =>
      have hone : ∀ l ∈ [line], Line.isParagraph l = true := by simp [hline]
      cases ih with
      | nil =>
        rw [StartsApart.cons (Or.inl rfl) hline]
        exact .run (List.cons_ne_nil _ _) hone (by simp) .nil
      | @single other _ _ hother h =>
        rw [StartsApart.cons (Or.inr ⟨_, _, rfl⟩) hline]
        exact .run (List.cons_ne_nil _ _) hone (by simpa using hother) (.single hother h)
      | @run lines rest bs _ hpar hr h =>
        have hall : ∀ l ∈ line :: lines, Line.isParagraph l = true :=
          List.forall_mem_cons.mpr ⟨hline, hpar⟩
        rw [Block.cons_paragraph hline]
        exact .run (List.cons_ne_nil line lines) hall hr h

/-- Tags stand around the runs of paragraph text, one pair around each. -/
theorem FallsInto.tag_eq (h : FallsInto source bs) :
    Paragraph.tag source = bs.flatMap Block.tagged := by
  induction h with
  | nil => rfl
  | @single line _ _ hline _ ih =>
    have hother : ∀ l ∈ [line], Line.isParagraph l = false := by simp [hline]
    rw [List.flatMap_cons, ← ih]
    exact Paragraph.tag_append_of_other hother _
  | run hne hpar hr _ ih =>
    rw [Paragraph.tag_append_of_text hne hpar hr, ih, List.flatMap_cons, Block.tagged]
    simp

theorem filterMap_contentLine?_of_isParagraph (h : ∀ line ∈ lines, line.isParagraph = true) :
    lines.filterMap Converter.contentLine? = lines.map Inline.convert := by
  induction lines with
  | nil => rfl
  | cons line rest ih =>
    obtain ⟨hline, hrest⟩ := List.forall_mem_cons.mp h
    rw [List.filterMap_cons, Converter.contentLine?_of_isParagraph hline, ih hrest]
    rfl

theorem filterMap_contentLine?_single (line : Line) :
    [line].filterMap Converter.contentLine? = Block.html (.single line) := by
  rw [Block.html, List.filterMap_cons, List.filterMap_nil, Converter.contentLine?]
  by_cases hd : (Declaration.parse? line).isSome = true
  · simp [hd]
  · by_cases he : (Inline.convert line).isEmpty = true
    · simp [hd, he]
    · simp [hd, he]

/-- What is left of the blocks after declarations and empty lines are taken out of them. -/
theorem FallsInto.filterMap_tagged (h : FallsInto source bs) :
    (bs.flatMap Block.tagged).filterMap Converter.contentLine? = bs.flatMap Block.html := by
  induction h with
  | nil => rfl
  | @single line _ _ _ _ ih =>
    rw [List.flatMap_cons, List.filterMap_append, ih, List.flatMap_cons, Block.tagged,
      filterMap_contentLine?_single]
  | @run lines _ bs _ hpar _ _ ih =>
    have hrun : (Block.tagged (.paragraph lines)).filterMap Converter.contentLine? =
        Block.html (.paragraph lines) := by
      rw [Block.tagged, Block.html, List.cons_append, List.filterMap_cons,
        Converter.contentLine?_openTag, List.filterMap_append,
        filterMap_contentLine?_of_isParagraph hpar, List.filterMap_cons,
        Converter.contentLine?_closeTag, List.filterMap_nil, List.cons_append]
    rw [List.flatMap_cons, List.filterMap_append, ih, List.flatMap_cons, hrun]

namespace Converter

/-- A rendered document is the HTML of its blocks. No line of a paragraph is lost on the way, tags are
put around whole runs only, and the declarations are those of the source, of which the last one for a
name counts. -/
theorem render_blocks (c : Converter) (source : List Line) :
    ∃ bs, FallsInto source bs ∧ (∀ bs', FallsInto source bs' → bs' = bs) ∧
      (c.render source).content = Text.join c.separator (bs.flatMap Block.html) ∧
      Paragraph.tag source = bs.flatMap Block.tagged ∧
      (∀ line ∈ source, line.isParagraph = true →
        Declaration.parse? line = none ∧ Inline.convert line ≠ []) ∧
      (Paragraph.tag source).filterMap Declaration.parse? =
        source.filterMap Declaration.parse? ∧
      (c.render source).values =
        (source.filterMap c.declaration?).foldl Variables.record Variables.empty ∧
      (∀ name raw, LastDeclares source name raw →
        (c.render source).values.get? name = some (Keyword.expand c.now raw)) ∧
      ∀ name, ¬ Declares source name → (c.render source).values.get? name = none := by
  have h := fallsInto_blocks source
  refine ⟨blocks source, h, fun bs' h' => h'.eq_blocks, ?_, h.tag_eq, ?_, ?_, ?_, ?_, ?_⟩
  · rw [render, h.tag_eq, h.filterMap_tagged]
  · intro line _ hline
    exact ⟨Declaration.parse?_of_isParagraph hline, Line.convert_ne_nil_of_isParagraph hline⟩
  · exact Paragraph.filterMap_tag Paragraph.parse?_openTag Paragraph.parse?_closeTag source
  · exact c.values_render source
  · exact fun name raw hname => c.get?_values_of_lastDeclares hname
  · exact fun name hname => c.get?_values_of_not_declares hname

theorem render_blocks_declared :
    Line.isParagraph "a;;".toList = true ∧
      LastDeclares ["a;;".toList, "@x: 1".toList, ";; b".toList, "@x: 2".toList] ['x'] ['2'] ∧
      ∃ bs, FallsInto ["a;;".toList, "@x: 1".toList, ";; b".toList, "@x: 2".toList] bs ∧
        (Converter.render ⟨⟨0, 0, 0⟩, ['\n']⟩
          ["a;;".toList, "@x: 1".toList, ";; b".toList, "@x: 2".toList]).content =
          Text.join ['\n'] (bs.flatMap Block.html) ∧
        Inline.convert "a;;".toList ≠ [] ∧
        (Converter.render ⟨⟨0, 0, 0⟩, ['\n']⟩
          ["a;;".toList, "@x: 1".toList, ";; b".toList, "@x: 2".toList]).values.get? ['x'] =
          some (Keyword.expand ⟨0, 0, 0⟩ ['2']) := by
  have hpar : Line.isParagraph "a;;".toList = true := by decide
  have hlast : LastDeclares ["a;;".toList, "@x: 1".toList, ";; b".toList, "@x: 2".toList]
      ['x'] ['2'] := by
    refine ⟨["a;;".toList, "@x: 1".toList, ";; b".toList], "@x: 2".toList, [], rfl, by decide, ?_⟩
    rintro ⟨line, hline, _⟩
    exact absurd hline List.not_mem_nil
  obtain ⟨bs, hbs, _, hcontent, _, hlines, _, _, hvalues, _⟩ := render_blocks ⟨⟨0, 0, 0⟩, ['\n']⟩
    ["a;;".toList, "@x: 1".toList, ";; b".toList, "@x: 2".toList]
  exact ⟨hpar, hlast, bs, hbs, hcontent, (hlines _ List.mem_cons_self hpar).2,
    hvalues _ _ hlast⟩

end Converter

end LineMarkup
