/-!
# Tables of code point ranges

A character class taken from the Unicode standard is kept as a list of closed ranges of
code points in increasing order. Membership is a scan of the list, which keeps the tables
plain data that a proof can evaluate.
-/

set_option autoImplicit false

namespace ScriptFront.Text

def inRanges (table : List (Nat × Nat)) (n : Nat) : Bool :=
  table.any fun r => decide (r.1 ≤ n) && decide (n ≤ r.2)

theorem inRanges_iff (table : List (Nat × Nat)) (n : Nat) :
    inRanges table n = true ↔ ∃ r ∈ table, r.1 ≤ n ∧ n ≤ r.2 := by
  simp [inRanges]

end ScriptFront.Text
