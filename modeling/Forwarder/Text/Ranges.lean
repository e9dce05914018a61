/-
**Character ranges.** A property of characters given by a table of closed intervals of code points.
-/

namespace Forwarder.Text

/-- Closed intervals of code points. -/
abbrev Ranges := List (Nat × Nat)

/-- Some interval holds the character. -/
def Ranges.holds (ranges : Ranges) (c : Char) : Bool :=
  ranges.any fun (low, high) => low ≤ c.toNat && c.toNat ≤ high

theorem Ranges.holds_iff {ranges : Ranges} {c : Char} :
    ranges.holds c = true ↔ ∃ range ∈ ranges, range.1 ≤ c.toNat ∧ c.toNat ≤ range.2 := by
  simp [Ranges.holds]

end Forwarder.Text
