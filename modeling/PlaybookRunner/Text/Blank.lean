/-!
# White space

The white space of a text is that of Unicode. Trimming works on lists of
characters, so that a trimmed text is what remains of the list.
-/

namespace PlaybookRunner.Text

/-- White space in the sense of Unicode, line and paragraph separators included. -/
def isBlank (c : Char) : Bool :=
  let n := c.toNat
  (9 ≤ n && n ≤ 13) || n == 0x20 || n == 0x85 || n == 0xA0 || n == 0x1680 ||
    (0x2000 ≤ n && n ≤ 0x200A) || n == 0x2028 || n == 0x2029 || n == 0x202F ||
    n == 0x205F || n == 0x3000

/-- Drops leading white space. -/
def trimStart (cs : List Char) : List Char := cs.dropWhile isBlank

/-- Drops trailing white space. -/
def trimEnd (cs : List Char) : List Char := (cs.reverse.dropWhile isBlank).reverse

/-- Drops white space at both ends. -/
def trim (cs : List Char) : List Char := trimEnd (trimStart cs)

/-- A text without white space at its ends. -/
def trimmed (s : String) : String := String.ofList (trim s.toList)

/-- Every character is white space; holds of the empty text. -/
def allBlank (cs : List Char) : Bool := cs.all isBlank

/-- The number of bytes of a text in its standard encoding. -/
def byteSize (cs : List Char) : Nat := cs.foldl (fun n c => n + c.utf8Size) 0

theorem length_trimStart_le (cs : List Char) : (trimStart cs).length ≤ cs.length := by
  simp only [trimStart]
  exact (List.dropWhile_suffix _).length_le

end PlaybookRunner.Text
