/-!
# Searching and splitting

Plain searches in lists of characters: parts between separators, the first
double character, and occurrence of one text in another.
-/

namespace PlaybookRunner.Text

/-- The parts of a text between separators; a text without separator is one part. -/
def splitAtChar (sep : Char) : List Char → List (List Char)
  | [] => [[]]
  | c :: rest =>
    if c = sep then [] :: splitAtChar sep rest
    else
      match splitAtChar sep rest with
      | [] => [[c]]
      | part :: parts => (c :: part) :: parts

/-- What stands before and after the first place where `c` occurs twice in a row. -/
def breakPair (c : Char) : List Char → Option (List Char × List Char)
  | a :: b :: rest =>
    if a = c ∧ b = c then some ([], rest)
    else (breakPair c (b :: rest)).map fun (before, after) => (a :: before, after)
  | _ => none

/-- What stands before and after the first occurrence of a character. -/
def breakChar (c : Char) : List Char → Option (List Char × List Char)
  | [] => none
  | a :: rest =>
    if a = c then some ([], rest)
    else (breakChar c rest).map fun (before, after) => (a :: before, after)

/-- One text occurs in another. -/
def occursIn (needle : List Char) : List Char → Bool
  | [] => needle.isEmpty
  | c :: rest => needle.isPrefixOf (c :: rest) || occursIn needle rest

theorem breakPair_eq {c : Char} {cs before after : List Char}
    (h : breakPair c cs = some (before, after)) : cs = before ++ c :: c :: after := by
  induction cs generalizing before with
  | nil => simp [breakPair] at h
  | cons a rest ih =>
    cases rest with
    | nil => simp [breakPair] at h
    | cons b rest =>
      simp only [breakPair] at h
      split at h
      · next hp => simp_all
      · cases hb : breakPair c (b :: rest) with
        | none => simp [hb] at h
        | some p =>
          obtain ⟨x, y⟩ := p
          simp only [hb, Option.map_some, Option.some.injEq, Prod.mk.injEq] at h
          obtain ⟨rfl, rfl⟩ := h
          rw [ih hb]
          rfl

theorem length_lt_of_breakPair {c : Char} {cs before after : List Char}
    (h : breakPair c cs = some (before, after)) : after.length + 2 ≤ cs.length := by
  rw [breakPair_eq h]
  simp

end PlaybookRunner.Text
