/-!
Character classes given as ranges of code points.
-/

namespace LineMarkup.Text

set_option autoImplicit false

abbrev Ranges := List (Nat × Nat)

/-- A code point is in a list of ranges if it lies between the two ends of one of them. -/
def Ranges.holds (ranges : Ranges) (n : Nat) : Bool :=
  ranges.any fun (first, last) => Nat.ble first n && Nat.ble n last

theorem Ranges.holds_iff {ranges : Ranges} {n : Nat} :
    ranges.holds n = true ↔ ∃ r ∈ ranges, r.1 ≤ n ∧ n ≤ r.2 := by
  simp [Ranges.holds, List.any_eq_true]

end LineMarkup.Text
