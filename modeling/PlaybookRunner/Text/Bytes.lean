/-!
# Bytes

Processes and files exchange bytes. A text stands for the bytes of its standard
encoding; bytes that do not form a text are read with replacement characters.
-/

namespace PlaybookRunner

/-- A sequence of bytes. -/
abbrev Bytes := List UInt8

namespace Bytes

/-- The encoding of a text. -/
def ofText (s : String) : Bytes := s.toUTF8.toList

/-- The encoding of a character. -/
def ofChar (c : Char) : Bytes := ofText (String.singleton c)

/-- The character that stands for bytes that cannot be read. -/
def replacement : Char := Char.ofNat 0xFFFD

/-- A byte that continues a character. -/
def isContinuation (b : UInt8) : Bool := 0x80 ≤ b && b ≤ 0xBF

/-- The second byte may follow the first, leading one. -/
def follows (lead second : UInt8) : Bool :=
  if lead == 0xE0 then 0xA0 ≤ second && second ≤ 0xBF
  else if lead == 0xED then 0x80 ≤ second && second ≤ 0x9F
  else if lead == 0xF0 then 0x90 ≤ second && second ≤ 0xBF
  else if lead == 0xF4 then 0x80 ≤ second && second ≤ 0x8F
  else isContinuation second

/-- The number of bytes that a leading byte announces after itself. -/
def announced (lead : UInt8) : Option Nat :=
  if lead < 0x80 then some 0
  else if 0xC2 ≤ lead && lead ≤ 0xDF then some 1
  else if 0xE0 ≤ lead && lead ≤ 0xEF then some 2
  else if 0xF0 ≤ lead && lead ≤ 0xF4 then some 3
  else none

/-- The payload of a leading byte that announces so many bytes. -/
def leadPayload (lead : UInt8) : Nat → Nat
  | 0 => lead.toNat
  | 1 => lead.toNat - 0xC0
  | 2 => lead.toNat - 0xE0
  | _ => lead.toNat - 0xF0

/-- How many of the announced bytes are there. -/
def matched (lead : UInt8) (count : Nat) (rest : Bytes) : Nat :=
  match rest with
  | [] => 0
  | second :: more =>
    if count == 0 || !follows lead second then 0
    else 1 + ((more.take (count - 1)).takeWhile isContinuation).length

/-- The first character of some bytes, and how many bytes it takes after the first. -/
def firstChar (lead : UInt8) (rest : Bytes) : Char × Nat :=
  match announced lead with
  | none => (replacement, 0)
  | some count =>
    let found := matched lead count rest
    if found < count then (replacement, found)
    else
      (Char.ofNat ((rest.take count).foldl (fun n b => n * 64 + (b.toNat - 0x80))
        (leadPayload lead count)), count)

/-- The characters of some bytes; a replacement stands for what cannot be read. -/
def decode : Bytes → List Char
  | [] => []
  | lead :: rest =>
    let (c, used) := firstChar lead rest
    c :: decode (rest.drop used)
termination_by bytes => bytes.length

/-- The text of some bytes. -/
def text (bytes : Bytes) : String := String.ofList bytes.decode

end Bytes

end PlaybookRunner
