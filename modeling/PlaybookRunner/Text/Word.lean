import PlaybookRunner.Text.WordTable

/-!
# Letters and numbers

The characters that may stand in a word: letters and numbers of any script.
-/

namespace PlaybookRunner.Text

/-- A number lies in one of some closed ranges. -/
def inRanges (ranges : List (Nat × Nat)) (n : Nat) : Bool :=
  ranges.any fun r => r.1 ≤ n && n ≤ r.2

/-- A letter or a number of any script. -/
def isWordLike (c : Char) : Bool :=
  if c.toNat < 0x80 then c.isAlphanum else inRanges wordRanges c.toNat

end PlaybookRunner.Text
