import LineMarkup.Declaration

/-!
The variables of a document: a finite map from names to values in which the last value set for a
name is the one that counts.
-/

namespace LineMarkup

set_option autoImplicit false

structure Variables where
  entries : List (Text × Text)
  nodup : (entries.map Prod.fst).Nodup

namespace Variables

def empty : Variables := ⟨[], List.nodup_nil⟩

instance : Inhabited Variables := ⟨empty⟩

def lookup (name : Text) : List (Text × Text) → Option Text
  | [] => none
  | (k, v) :: rest => if k = name then some v else lookup name rest

def get? (vars : Variables) (name : Text) : Option Text := lookup name vars.entries

def erase (vars : Variables) (name : Text) : Variables where
  entries := vars.entries.filter fun e => e.1 ≠ name
  nodup := vars.nodup.sublist (List.Sublist.map Prod.fst List.filter_sublist)

def set (vars : Variables) (name value : Text) : Variables where
  entries := (vars.erase name).entries ++ [(name, value)]
  nodup := by
    rw [List.map_append, List.nodup_append]
    refine ⟨(vars.erase name).nodup, by simp, ?_⟩
    intro a ha b hb
    simp only [List.map_cons, List.map_nil, List.mem_singleton] at hb
    obtain ⟨e, he, rfl⟩ := List.mem_map.mp ha
    rw [hb]
    exact of_decide_eq_true (List.mem_filter.mp he).2

def record (vars : Variables) (d : Declaration) : Variables := vars.set d.name d.value

def ofDeclarations (ds : List Declaration) : Variables := ds.foldl record empty

def ofList (entries : List (Text × Text)) : Variables :=
  entries.foldl (fun vars e => vars.set e.1 e.2) empty

def size (vars : Variables) : Nat := vars.entries.length

@[simp] theorem get?_empty (name : Text) : empty.get? name = none := rfl

theorem lookup_append (name : Text) (xs ys : List (Text × Text)) :
    lookup name (xs ++ ys) = (lookup name xs).or (lookup name ys) := by
  induction xs with
  | nil => simp [lookup]
  | cons e rest ih =>
    by_cases h : e.1 = name
    · simp [lookup, h]
    · simp [lookup, h, ih]

theorem lookup_filter_ne (name other : Text) (xs : List (Text × Text)) :
    lookup other (xs.filter fun e => e.1 ≠ name) = if other = name then none else lookup other xs := by
  induction xs with
  | nil => simp [lookup]
  | cons e rest ih =>
    by_cases hk : e.1 = name
    · rw [List.filter_cons_of_neg (by simp [hk]), ih]
      by_cases ho : other = name
      · simp [ho]
      · simp [ho, lookup, hk, Ne.symm ho]
    · rw [List.filter_cons_of_pos (by simp [hk])]
      by_cases ho : e.1 = other
      · have hn : other ≠ name := fun h => hk (ho.trans h)
        simp [lookup, ho, hn]
      · simp only [lookup, if_neg ho, ih]

theorem get?_erase (vars : Variables) (name other : Text) :
    (vars.erase name).get? other = if other = name then none else vars.get? other :=
  lookup_filter_ne name other vars.entries

theorem get?_set (vars : Variables) (name value other : Text) :
    (vars.set name value).get? other = if other = name then some value else vars.get? other := by
  have h : lookup other (vars.erase name).entries = _ := get?_erase vars name other
  simp only [get?, set, lookup_append, h]
  by_cases ho : other = name
  · simp [ho, lookup]
  · simp [ho, lookup, Ne.symm ho]

end Variables

end LineMarkup
