import LineMarkup.Proofs.Document.Values
import LineMarkup.Proofs.Text.Tokens

/-!
Declarations, from the line to the value. A line declares something if it can be read as a name and a
value with white space in front of it, and it can be read so in one way only. In the value, every call
of a keyword is replaced by itself, whatever the other calls come to.
-/

namespace LineMarkup

set_option autoImplicit false

open Template (IsName)
open Text (Piece CutFromLeft Recognizes)

namespace Declaration

/-- A value is the rest of a line from a character on that is not white space. -/
structure IsValue (value : Text) : Prop where
  head : ∀ c ∈ value.head?, Text.isSpace c = false
  oneLine : '\n' ∉ value

/-- The line is an at sign, the name, a colon, white space if any, and the value. -/
structure Spells (line space : Text) (d : Declaration) : Prop where
  written : line = '@' :: (d.name ++ ':' :: (space ++ d.value))
  isName : IsName d.name
  isSpace : ∀ c ∈ space, Text.isSpace c = true
  isValue : IsValue d.value

variable {line space space' : Text} {d d' : Declaration}

theorem Spells.trimStart (h : Spells line space d) : Text.trimStart (space ++ d.value) = d.value :=
  Text.dropWhile_append_of_head h.isSpace h.isValue.head

theorem Spells.parse? (h : Spells line space d) : Declaration.parse? line = some d :=
  parse?_eq_some_iff.mpr ⟨_, h.written, h.isName, h.trimStart.symm, h.isValue.oneLine⟩

theorem exists_spells (h : Declaration.parse? line = some d) : ∃ space, Spells line space d := by
  obtain ⟨rest, hline, hname, hvalue, hnewline⟩ := parse?_eq_some_iff.mp h
  refine ⟨rest.takeWhile Text.isSpace, ?_, hname, List.all_eq_true.mp List.all_takeWhile, ?_, hnewline⟩
  · rw [hvalue, Text.trimStart, List.takeWhile_append_dropWhile]
    exact hline
  · rw [hvalue]
    exact Text.forall_head?_dropWhile Text.isSpace rest

theorem Spells.unique (h : Spells line space d) (h' : Spells line space' d') :
    space = space' ∧ d = d' := by
  obtain rfl : d = d' := Option.some.inj (h.parse?.symm.trans h'.parse?)
  have hrest := (List.cons.inj (h.written.symm.trans h'.written)).2
  have hspace := (List.cons.inj (List.append_cancel_left hrest)).2
  exact ⟨List.append_cancel_right hspace, rfl⟩

/-- A line is a declaration if and only if it is spelled like one, and its spelling tells the white
space, the name and the value apart. -/
theorem parse?_grammar :
    (∀ line d, parse? line = some d ↔ ∃ space, Spells line space d) ∧
    (∀ line space space' d d', Spells line space d → Spells line space' d' →
      space = space' ∧ d = d') ∧
    ∀ name value, IsName name → IsValue value →
      parse? ("@".toList ++ name ++ ": ".toList ++ value) = some ⟨name, value⟩ := by
  refine ⟨fun line d => ⟨exists_spells, fun ⟨_, h⟩ => h.parse?⟩,
    fun line space space' d d' h h' => h.unique h', ?_⟩
  intro name value hname hvalue
  have h : Spells ("@".toList ++ name ++ ": ".toList ++ value) [' '] ⟨name, value⟩ := by
    refine ⟨?_, hname, by decide, hvalue⟩
    rw [List.append_assoc, List.append_assoc]
    rfl
  exact h.parse?

/-- White space that holds a newline, and a value that reads like a declaration and a comment. -/
theorem parse?_grammar_newline :
    Spells "@a_1:\n \t@b: c ;;  ".toList "\n \t".toList ⟨"a_1".toList, "@b: c ;;  ".toList⟩ ∧
      parse? "@a_1:\n \t@b: c ;;  ".toList = some ⟨"a_1".toList, "@b: c ;;  ".toList⟩ ∧
      parse? "@a_1: @b: c ;;  ".toList = some ⟨"a_1".toList, "@b: c ;;  ".toList⟩ := by
  have hname : IsName "a_1".toList := ⟨by decide, by decide⟩
  have hvalue : IsValue "@b: c ;;  ".toList := by
    refine ⟨?_, by decide⟩
    rintro c ⟨⟩
    decide
  have h : Spells "@a_1:\n \t@b: c ;;  ".toList "\n \t".toList
      ⟨"a_1".toList, "@b: c ;;  ".toList⟩ := ⟨by decide, hname, by decide, hvalue⟩
  exact ⟨h, (parse?_grammar.1 _ _).mpr ⟨_, h⟩, parse?_grammar.2.2 _ _ hname hvalue⟩

end Declaration

namespace Keyword

/-- A call as it is written in a value. -/
def call (argument : Text) : Text := timeLead ++ argument ++ [')']

/-- An argument ends at the first closing parenthesis. -/
def IsArgument (argument : Text) : Prop := ')' ∉ argument

theorem recognizes_call : Recognizes call? call IsArgument where
  ne_nil argument := by simp [call]
  find argument rest h := by
    have hlead : (call argument ++ rest).after? timeLead = some (argument ++ ')' :: rest) := by
      rw [Text.after?_eq_some_iff, call]
      simp
    have hcut : Text.cut ')' (argument ++ ')' :: rest) = some (argument, rest) :=
      Text.cut_eq_some_iff.mpr ⟨rfl, h⟩
    have hlength : (call argument).length - 1 = argument.length + timeLead.length := by
      simp [call, Nat.add_comm]
    rw [call?, hlead, hlength]
    simp only [hcut, Option.map_some]
  begins t argument n h := by
    unfold call? at h
    split at h
    next r hr =>
      obtain ⟨⟨before, after⟩, hcut, he⟩ := Option.map_eq_some_iff.mp h
      obtain rfl : before = argument := (Prod.mk.inj he).1
      obtain ⟨rfl, hargument⟩ := Text.cut_eq_some_iff.mp hcut
      refine ⟨hargument, after, ?_⟩
      rw [Text.after?_eq_some_iff.mp hr, call]
      simp
    next => simp at h

/-- The calls of a value are found from the left before anything is known of the formats. Each is
replaced by its time, or kept where there is none, and nothing that was written is looked at again. -/
theorem expand_calls (value : Text) :
    ∃ ps, (∀ qs, CutFromLeft call IsArgument value qs ↔ qs = ps) ∧
      (∀ formatter, expandWith formatter value =
        ps.flatMap (Piece.write fun format => (formatter format).getD (call format))) ∧
      ∀ now, expand now value =
        ps.flatMap (Piece.write fun format => (Time.format now format).getD (call format)) :=
  ⟨Text.pieces call? value, fun _ => recognizes_call.cutFromLeft_iff, fun _ => rfl, fun _ => rfl⟩

/-- A call inside of another is part of its format, a call without an end is none, and a time that reads
like a call is not expanded. -/
example : expandWith (fun format => if format = ['a'] then some "TIME(b)".toList
      else if format = ['b'] then some ['B'] else none)
    "TIME(a)TIME(b)TIME(TIME(a) TIME(b".toList = "TIME(b)BTIME(TIME(a) TIME(b".toList := by decide

end Keyword

end LineMarkup
