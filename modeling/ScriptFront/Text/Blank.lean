import ScriptFront.Text.Ranges
/-!
# Blank characters

The characters with the Unicode property White_Space. A line quoted in a diagnostic is cut
after its last character outside this class.
-/

set_option autoImplicit false

namespace ScriptFront.Text

/-- The code points with the property White_Space (Unicode 15.1). -/
def whiteSpace : List (Nat × Nat) := [
  (0x9, 0xD), (0x20, 0x20), (0x85, 0x85), (0xA0, 0xA0), (0x1680, 0x1680),
  (0x2000, 0x200A), (0x2028, 0x2029), (0x202F, 0x202F), (0x205F, 0x205F), (0x3000, 0x3000)]
def isBlank (c : Char) : Bool := inRanges whiteSpace c.toNat

def dropTrailingBlanks (s : String) : String :=
  String.ofList (s.toList.reverse.dropWhile isBlank).reverse

theorem isBlank_of_isWhitespace (c : Char) (h : c.isWhitespace = true) : isBlank c = true := by
  simp only [Char.isWhitespace, Bool.or_eq_true, decide_eq_true_eq] at h
  rcases h with ((h | h) | h) | h <;> simp [h, isBlank, inRanges, whiteSpace]

end ScriptFront.Text
