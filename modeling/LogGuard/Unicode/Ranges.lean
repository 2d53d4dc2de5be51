/-!
# Sets of code points

A set of characters is given as a list of closed ranges of code points in increasing order
(`Ranges`), the form in which the Unicode character database publishes its properties.
`Ranges.contains` stops at the first range that ends at or above the code point sought.
-/

namespace LogGuard.Unicode

/-- Closed ranges of code points, disjoint and in increasing order. -/
abbrev Ranges := List (Nat × Nat)

/-- Whether a range holds the code point `n`. -/
def Ranges.containsCode (n : Nat) : Ranges → Bool
  | [] => false
  | (low, high) :: rest => if n ≤ high then decide (low ≤ n) else Ranges.containsCode n rest

/-- Whether a range holds the character `c`. -/
def Ranges.contains (ranges : Ranges) (c : Char) : Bool :=
  Ranges.containsCode c.toNat ranges

end LogGuard.Unicode
