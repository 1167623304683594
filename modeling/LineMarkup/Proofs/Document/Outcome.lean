import LineMarkup.Proofs.Document.Values
import LineMarkup.Proofs.Template.Location

/-!
What converting a source comes to: one of three errors, each with its exact condition, or the template
with the values of the document in it.
-/

namespace LineMarkup

set_option autoImplicit false

open Template (templateKey contentKey placeholder IsName Cut Beside NoFile)
open Text (Piece)

/-- What a source makes a template hold for the names of placeholders. -/
structure Fills (c : Converter) (source : List Line) (value : Text → Text) : Prop where
  content : value contentKey = (c.render source).content
  template : value templateKey = placeholder templateKey
  declared : ∀ name raw, name ≠ contentKey → name ≠ templateKey → LastDeclares source name raw →
    IsName name ∧ value name = Keyword.expand c.now raw
  undeclared : ∀ name, name ≠ contentKey → ¬ Declares source name → value name = placeholder name

/-- What a document writes for a placeholder. -/
def Document.write (d : Document) (name : Text) : Text :=
  if name = contentKey then d.content
  else if name = templateKey then placeholder name
  else (d.values.get? name).getD (placeholder name)

theorem Document.fill_eq {d : Document} {value : Text} (h : d.values.get? templateKey = some value)
    (template : Text) :
    d.fill template =
      .ok ((Text.pieces Template.placeholder? template).flatMap (Piece.write d.write)) := by
  have hvalues : Template.values? d.values d.content =
      some ((d.values.erase templateKey).set contentKey d.content) := by
    rw [Template.values?, h]
    rfl
  have hwrite : (fun name => (((d.values.erase templateKey).set contentKey d.content).get?
      name).getD (placeholder name)) = d.write := by
    funext name
    rw [Variables.get?_set, Variables.get?_erase, Document.write]
    split
    · rfl
    · split <;> rfl
  rw [Document.fill, hvalues, ← hwrite]
  rfl

/-- What becomes of the answer to the request for a template. -/
def Document.finish (d : Document) (location : Text) :
    Except String Text → Except ConvertError Text
  | .error reason => .error (.unreadableTemplate location reason)
  | .ok template => d.fill template

namespace Converter

variable {m : Type → Type} [Monad m] {source : List Line} {path : Option Text} {raw dir : Text}

theorem fills_write (c : Converter) (source : List Line) : Fills c source (c.render source).write := by
  have hkeys : templateKey ≠ contentKey := by decide
  constructor
  · rw [Document.write, if_pos rfl]
  · rw [Document.write, if_neg hkeys, if_pos rfl]
  · intro name raw hc ht hname
    refine ⟨hname.isName, ?_⟩
    rw [Document.write, if_neg hc, if_neg ht, c.get?_values_of_lastDeclares hname]
    rfl
  · intro name hc hname
    rw [Document.write, if_neg hc, c.get?_values_of_not_declares hname]
    exact ite_self _

theorem template?_render (c : Converter) (h : LastDeclares source templateKey raw) :
    (c.render source).template? = some (Keyword.expand c.now raw) :=
  c.get?_values_of_lastDeclares h

theorem convert_of_not_declares (c : Converter) (h : ¬ Declares source templateKey)
    (path : Option Text) (load : Text → m (Except String Text)) :
    c.convert source path load = pure (.error .missingTemplate) := by
  have ht : (c.render source).template? = none := c.get?_values_of_not_declares h
  simp only [convert, Document.templatePath, ht]

theorem convert_of_noFile (c : Converter) (h : LastDeclares source templateKey raw) {p : Text}
    (hp : NoFile p) (load : Text → m (Except String Text)) :
    c.convert source (some p) load = pure (.error (.invalidPath p)) := by
  simp only [convert, Document.templatePath, c.template?_render h, Template.location_of_noFile hp]

/-- A template is asked for once, where the document's path puts it. -/
theorem convert_of_location (c : Converter)
    (hl : ∀ name, Template.location path name = .ok (dir ++ name))
    (load : Text → m (Except String Text)) :
    c.convert source path load = match (c.render source).template? with
      | none => pure (.error .missingTemplate)
      | some name => load (dir ++ name) >>= fun answer =>
          pure ((c.render source).finish (dir ++ name) answer) := by
  cases h : (c.render source).template? with
  | none => simp only [convert, Document.templatePath, h]
  | some name =>
    simp only [convert, Document.templatePath, h, hl]
    congr 1
    funext answer
    cases answer with
    | error reason => rfl
    | ok template => rfl

theorem convert_of_file (c : Converter) (h : LastDeclares source templateKey raw)
    (hp : ∀ p, path = some p → ¬ NoFile p) (hd : Beside path dir)
    (load : Text → m (Except String Text)) :
    c.convert source path load = load (dir ++ Keyword.expand c.now raw) >>= fun answer =>
      pure ((c.render source).finish (dir ++ Keyword.expand c.now raw) answer) := by
  rw [c.convert_of_location (Template.location_of_file hp hd), c.template?_render h]

theorem convert_cases (c : Converter) (h : LastDeclares source templateKey raw)
    (hd : Beside path dir) (load : Text → Except String Text) :
    (∃ p, path = some p ∧ NoFile p ∧
      c.convert (m := Id) source path load = .error (.invalidPath p)) ∨
    ((∀ p, path = some p → ¬ NoFile p) ∧
      ((∃ reason, load (dir ++ Keyword.expand c.now raw) = .error reason ∧
        c.convert (m := Id) source path load =
          .error (.unreadableTemplate (dir ++ Keyword.expand c.now raw) reason)) ∨
      ∃ template, load (dir ++ Keyword.expand c.now raw) = .ok template ∧
        c.convert (m := Id) source path load =
          .ok ((Text.pieces Template.placeholder? template).flatMap
            (Piece.write (c.render source).write)))) := by
  by_cases hn : ∃ p, path = some p ∧ NoFile p
  · obtain ⟨p, rfl, hp⟩ := hn
    exact Or.inl ⟨p, rfl, hp, c.convert_of_noFile (m := Id) h hp load⟩
  · have hp : ∀ p, path = some p → ¬ NoFile p := fun p he hp => hn ⟨p, he, hp⟩
    have he := c.convert_of_file (m := Id) h hp hd load
    refine Or.inr ⟨hp, ?_⟩
    cases hl : load (dir ++ Keyword.expand c.now raw) with
    | error reason =>
      refine Or.inl ⟨reason, rfl, ?_⟩
      rw [he, hl]
      rfl
    | ok template =>
      refine Or.inr ⟨template, rfl, ?_⟩
      rw [he, hl, ← Document.fill_eq (c.get?_values_of_lastDeclares h)]
      rfl

theorem convert_eq_missingTemplate_iff (c : Converter) (source : List Line) (path : Option Text)
    (load : Text → Except String Text) :
    c.convert (m := Id) source path load = .error .missingTemplate ↔
      ¬ Declares source templateKey := by
  constructor
  · intro hc hd
    obtain ⟨raw, hraw⟩ := declares_iff_exists.mp hd
    obtain ⟨dir, hdir⟩ := Template.exists_beside path
    rcases c.convert_cases hraw hdir load with
      ⟨p, _, _, he⟩ | ⟨_, ⟨reason, _, he⟩ | ⟨template, _, he⟩⟩
    · cases he.symm.trans hc
    · cases he.symm.trans hc
    · cases he.symm.trans hc
  · exact fun hd => c.convert_of_not_declares (m := Id) hd path load

section Declared
variable (c : Converter) (h : LastDeclares source templateKey raw) (load : Text → Except String Text)
include h

theorem convert_eq_invalidPath_iff {p : Text} :
    c.convert (m := Id) source path load = .error (.invalidPath p) ↔ path = some p ∧ NoFile p := by
  constructor
  · intro hc
    obtain ⟨dir, hdir⟩ := Template.exists_beside path
    rcases c.convert_cases h hdir load with
      ⟨q, hq, hn, he⟩ | ⟨_, ⟨reason, _, he⟩ | ⟨template, _, he⟩⟩
    · cases he.symm.trans hc
      exact ⟨hq, hn⟩
    · cases he.symm.trans hc
    · cases he.symm.trans hc
  · rintro ⟨rfl, hn⟩
    exact c.convert_of_noFile (m := Id) h hn load

variable (hp : ∀ p, path = some p → ¬ NoFile p) (hd : Beside path dir)
include hp hd

theorem convert_eq_unreadableTemplate_iff {location : Text} {reason : String} :
    c.convert (m := Id) source path load = .error (.unreadableTemplate location reason) ↔
      location = dir ++ Keyword.expand c.now raw ∧ load location = .error reason := by
  constructor
  · intro hc
    rcases c.convert_cases h hd load with ⟨p, hq, hn, _⟩ | ⟨_, ⟨r, hl, he⟩ | ⟨template, _, he⟩⟩
    · exact absurd hn (hp p hq)
    · cases he.symm.trans hc
      exact ⟨rfl, hl⟩
    · cases he.symm.trans hc
  · rintro ⟨rfl, hl⟩
    rcases c.convert_cases h hd load with ⟨p, hq, hn, _⟩ | ⟨_, ⟨r, hr, he⟩ | ⟨template, ht, _⟩⟩
    · exact absurd hn (hp p hq)
    · cases hl.symm.trans hr
      exact he
    · cases hl.symm.trans ht

theorem convert_eq_ok {template : Text}
    (hl : load (dir ++ Keyword.expand c.now raw) = .ok template) :
    c.convert (m := Id) source path load =
      .ok ((Text.pieces Template.placeholder? template).flatMap
        (Piece.write (c.render source).write)) := by
  rcases c.convert_cases h hd load with ⟨p, hq, hn, _⟩ | ⟨_, ⟨reason, hr, _⟩ | ⟨t, ht, he⟩⟩
  · exact absurd hn (hp p hq)
  · cases hl.symm.trans hr
  · cases hl.symm.trans ht
    exact he

end Declared

/-- Converting fails for want of a declared template, then for a path that no file can have, then for
a template that cannot be read; otherwise it fills the template. -/
theorem convert_outcome (c : Converter) (source : List Line) (path : Option Text)
    (load : Text → Except String Text) :
    (c.convert (m := Id) source path load = .error .missingTemplate ↔
      ¬ Declares source templateKey) ∧
    ∀ raw, LastDeclares source templateKey raw → ∃ dir, Beside path dir ∧
      (∀ p, c.convert (m := Id) source path load = .error (.invalidPath p) ↔
        path = some p ∧ NoFile p) ∧
      ((∀ p, path = some p → ¬ NoFile p) →
        (∀ location reason,
          c.convert (m := Id) source path load = .error (.unreadableTemplate location reason) ↔
            location = dir ++ Keyword.expand c.now raw ∧ load location = .error reason) ∧
        ∀ template, load (dir ++ Keyword.expand c.now raw) = .ok template →
          ∃ value ps, Fills c source value ∧ Cut template ps ∧ (∀ qs, Cut template qs → qs = ps) ∧
            c.convert (m := Id) source path load = .ok (ps.flatMap (Piece.write value))) := by
  refine ⟨c.convert_eq_missingTemplate_iff source path load, ?_⟩
  intro raw h
  obtain ⟨dir, hd⟩ := Template.exists_beside path
  refine ⟨dir, hd, fun p => c.convert_eq_invalidPath_iff h load, ?_⟩
  intro hp
  constructor
  · exact fun location reason => c.convert_eq_unreadableTemplate_iff h load hp hd
  · intro template hl
    have hcut := Template.cut_pieces template
    exact ⟨_, _, c.fills_write source, hcut, fun qs hq => hq.unique hcut,
      c.convert_eq_ok h load hp hd hl⟩

theorem convert_outcome_base :
    LastDeclares ["@template: a".toList, "@x: 1".toList, "@template: b".toList] templateKey ['b'] ∧
      ∃ value ps,
        Fills ⟨⟨0, 0, 0⟩, ['\n']⟩ ["@template: a".toList, "@x: 1".toList, "@template: b".toList]
          value ∧
        Cut "\x7b\x7bx\x7d\x7d\x7b\x7by\x7d\x7d".toList ps ∧
        (∀ qs, Cut "\x7b\x7bx\x7d\x7d\x7b\x7by\x7d\x7d".toList qs → qs = ps) ∧
        Converter.convert (m := Id) ⟨⟨0, 0, 0⟩, ['\n']⟩
            ["@template: a".toList, "@x: 1".toList, "@template: b".toList] (some "d/s".toList)
            (fun p => if p = "d/b".toList then .ok "\x7b\x7bx\x7d\x7d\x7b\x7by\x7d\x7d".toList
              else .error "absent") =
          .ok (ps.flatMap (Piece.write value)) := by
  have hraw : LastDeclares ["@template: a".toList, "@x: 1".toList, "@template: b".toList]
      templateKey ['b'] := by
    refine ⟨["@template: a".toList, "@x: 1".toList], "@template: b".toList, [], rfl, by decide, ?_⟩
    rintro ⟨line, hline, _⟩
    exact absurd hline List.not_mem_nil
  refine ⟨hraw, ?_⟩
  obtain ⟨dir, hdir, _, hload⟩ := (convert_outcome ⟨⟨0, 0, 0⟩, ['\n']⟩
    ["@template: a".toList, "@x: 1".toList, "@template: b".toList] (some "d/s".toList)
    (fun p => if p = "d/b".toList then .ok "\x7b\x7bx\x7d\x7d\x7b\x7by\x7d\x7d".toList
      else .error "absent")).2 ['b'] hraw
  obtain rfl := Template.folder_eq hdir
  have hfile : ¬ NoFile "d/s".toList := Template.isSource_iff.mp (by decide)
  refine (hload ?_).2 _ ?_
  · rintro p hp
    obtain rfl := Option.some.inj hp
    exact hfile
  · exact if_pos (by decide)

end Converter

end LineMarkup
