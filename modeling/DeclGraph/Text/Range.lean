/-!
# Tables of code point ranges

A property of characters is given as a list of closed ranges of code points.
Characters below 128 are decided by rules stated with each property, so that
reasoning about plain names never opens a table.
-/

namespace DeclGraph.Text

/-- A closed range of code points, first and last. -/
abbrev Range := Nat × Nat

/-- Whether some range of the table holds the code point. -/
def covers (table : List Range) (code : Nat) : Bool :=
  table.any fun range => range.1 ≤ code && code ≤ range.2

/-- A code point is covered exactly when one of the ranges holds it. -/
theorem covers_iff {table : List Range} {code : Nat} :
    covers table code = true ↔ ∃ range ∈ table, range.1 ≤ code ∧ code ≤ range.2 := by
  simp [covers]

end DeclGraph.Text
