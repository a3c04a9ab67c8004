import PlaybookRunner.Command.Arguments

/-!
# Quoted words

The quoting of the shell as a grammar of what is written and what it says.
Outside quotes a character stands for itself unless it is white space, a quote
or a backslash; a backslash takes the next character as it is, and vanishes
together with a line break. Between double quotes a backslash does so only
before a character that has a meaning there.

The scan for the end of a word goes exactly as far as the grammar, and the
splitting of shell words answers what a word of the grammar says.
-/

namespace PlaybookRunner

namespace Text

def isPlain (c : Char) : Bool := !isBlank c && c != '\\' && c != '\'' && c != '"'

/-- What stands between double quotes, and what it says. -/
inductive SaysInside : List Char → List Char → Prop
  | nil : SaysInside [] []
  | char {c : Char} {w t : List Char} (hquote : c ≠ '"') (hslash : c ≠ '\\')
      (h : SaysInside w t) : SaysInside (c :: w) (c :: t)
  | lineBreak {w t : List Char} (h : SaysInside w t) : SaysInside ('\\' :: '\n' :: w) t
  | escaped {c : Char} {w t : List Char} (hc : isDoubleEscapable c = true)
      (h : SaysInside w t) : SaysInside ('\\' :: c :: w) (c :: t)
  | kept {c : Char} {w t : List Char} (hbreak : c ≠ '\n') (hc : isDoubleEscapable c = false)
      (h : SaysInside w t) : SaysInside ('\\' :: c :: w) ('\\' :: c :: t)

/-- A word in which all quotes are closed, and what it says. -/
inductive Says : List Char → List Char → Prop
  | nil : Says [] []
  | char {c : Char} {w t : List Char} (hc : isPlain c = true) (h : Says w t) :
      Says (c :: w) (c :: t)
  | lineBreak {w t : List Char} (h : Says w t) : Says ('\\' :: '\n' :: w) t
  | escaped {c : Char} {w t : List Char} (hc : c ≠ '\n') (h : Says w t) :
      Says ('\\' :: c :: w) (c :: t)
  | single {body w t : List Char} (hbody : '\'' ∉ body) (h : Says w t) :
      Says ('\'' :: (body ++ '\'' :: w)) (body ++ t)
  | double {body inside w t : List Char} (hbody : SaysInside body inside) (h : Says w t) :
      Says ('"' :: (body ++ '"' :: w)) (inside ++ t)

/-- A word ends here: with the text, or before white space. -/
def EndsWord (cs : List Char) : Prop := ∀ c ∈ cs.head?, isBlank c = true

/-- The quotes of the first word of a text are closed. -/
def Closes (cs : List Char) : Prop :=
  ∃ word rest text, cs = word ++ rest ∧ Says word text ∧ EndsWord rest

theorem isPlain_iff {c : Char} :
    isPlain c = true ↔ isBlank c = false ∧ c ≠ '\\' ∧ c ≠ '\'' ∧ c ≠ '"' := by
  simp [isPlain, and_assoc]

theorem isWordBlank_of_isPlain {c : Char} (h : isPlain c = true) : isWordBlank c = false := by
  obtain ⟨hblank, -⟩ := isPlain_iff.mp h
  cases hword : isWordBlank c with
  | false => rfl
  | true =>
    simp only [isWordBlank, Bool.or_eq_true, beq_iff_eq] at hword
    obtain (rfl | rfl) | rfl := hword <;> cases hblank

theorem says_of_isPlain {w : List Char} (h : ∀ c ∈ w, isPlain c = true) : Says w w := by
  induction w with
  | nil => exact .nil
  | cons c w ih =>
    obtain ⟨hc, hw⟩ := List.forall_mem_cons.mp h
    exact .char hc (ih hw)

theorem Says.append {v s w t : List Char} (hv : Says v s) (hw : Says w t) :
    Says (v ++ w) (s ++ t) := by
  induction hv with
  | nil => exact hw
  | char hc _ ih => exact .char hc ih
  | lineBreak _ ih => exact .lineBreak ih
  | escaped hc _ ih => exact .escaped hc ih
  | single hbody _ ih => simpa using Says.single hbody ih
  | double hbody _ ih => simpa using Says.double hbody ih

/-! ### Single quotes -/

/-- Whatever stands before the next quote has been read when single quotes are written out. -/
theorem says_quoteInside (cs : List Char) {body : List Char} (hbody : '\'' ∉ body) :
    Says ('\'' :: (body ++ quoteInside cs ++ ['\''])) (body ++ cs) := by
  induction cs generalizing body with
  | nil => simpa [quoteInside] using Says.single hbody .nil
  | cons c cs ih =>
    by_cases hc : c = '\''
    · subst hc
      have hrest : Says ('\'' :: ([] ++ quoteInside cs ++ ['\''])) ([] ++ cs) := ih (by simp)
      have hquote : '\'' ≠ '\n' := by decide
      simpa [quoteInside] using Says.single hbody (Says.escaped hquote hrest)
    · have hmore : '\'' ∉ body ++ [c] := by simpa [hbody] using fun h => hc h.symm
      simpa [quoteInside, hc] using ih hmore

theorem says_singleQuote (cs : List Char) : Says (singleQuote cs) cs := by
  have h : Says ('\'' :: ([] ++ quoteInside cs ++ ['\''])) ([] ++ cs) := says_quoteInside cs (by simp)
  simpa [singleQuote] using h

/-! ### Splitting -/

theorem splitWords_single {body : List Char} (hbody : '\'' ∉ body) (word rest : List Char) :
    splitWords .singleQuoted word (body ++ '\'' :: rest) =
      splitWords .plain (body.reverse ++ word) rest := by
  induction body generalizing word with
  | nil => rfl
  | cons c body ih =>
    simp only [List.mem_cons, not_or] at hbody
    simp [splitWords, Ne.symm hbody.1, ih hbody.2]

theorem splitWords_double {body inside : List Char} (hbody : SaysInside body inside)
    (word rest : List Char) :
    splitWords .doubleQuoted word (body ++ '"' :: rest) =
      splitWords .plain (inside.reverse ++ word) rest := by
  induction hbody generalizing word with
  | nil => rfl
  | char hquote hslash _ ih => simp [splitWords, hquote, hslash, ih]
  | lineBreak _ ih => simpa [splitWords] using ih word
  | @escaped c _ _ hc _ ih =>
    have hbreak : c ≠ '\n' := by
      rintro rfl
      cases hc
    simp [splitWords, hbreak, hc, ih]
  | kept hbreak hc _ ih => simp [splitWords, hbreak, hc, ih]

/-- Inside a word, splitting takes up what a part of the word says. -/
theorem splitWords_append {w t : List Char} (h : Says w t) (word rest : List Char) :
    splitWords .plain word (w ++ rest) = splitWords .plain (t.reverse ++ word) rest := by
  induction h generalizing word with
  | nil => rfl
  | char hc _ ih =>
    have hblank := isWordBlank_of_isPlain hc
    obtain ⟨-, hslash, hsingle, hdouble⟩ := isPlain_iff.mp hc
    simp [splitWords, hslash, hsingle, hdouble, hblank, ih]
  | lineBreak _ ih => simpa [splitWords] using ih word
  | escaped hc _ ih => simp [splitWords, hc, ih]
  | @single body w t hbody _ ih =>
    have hquoted := splitWords_single hbody word (w ++ rest)
    simp [splitWords, hquoted, ih]
  | @double body inside w t hbody _ ih =>
    have hquoted := splitWords_double hbody word (w ++ rest)
    simp [splitWords, hquoted, ih]

theorem shellWords?_word {c : Char} {w t : List Char} (hc : isPlain c = true) (hcomment : c ≠ '#')
    (h : Says w t) : shellWords? (c :: w) = some [c :: t] := by
  have hblank := isWordBlank_of_isPlain hc
  obtain ⟨-, hslash, hsingle, hdouble⟩ := isPlain_iff.mp hc
  have hrest := splitWords_append h [c] []
  rw [List.append_nil] at hrest
  simp [shellWords?, splitWords, hslash, hsingle, hdouble, hblank, hcomment, hrest]

end Text

namespace Arguments

open Text

/-! ### The end of a word -/

section

variable {quotes : Quotes} {c : Char} {cs word after : List Char}

theorem firstWord_cons (cs : List Char) (hc : c = '\\' → quotes = .single) :
    firstWord quotes (c :: cs) =
      if c = '\'' ∧ quotes ≠ .double then
        (firstWord (if quotes = .single then .none else .single) cs).map fun p => (c :: p.1, p.2)
      else if c = '"' ∧ quotes ≠ .single then
        (firstWord (if quotes = .double then .none else .double) cs).map fun p => (c :: p.1, p.2)
      else if isBlank c ∧ quotes = .none then some ([], c :: cs)
      else (firstWord quotes cs).map fun p => (c :: p.1, p.2) := by
  have hescape : ¬ (c = '\\' ∧ quotes ≠ .single) := fun h => h.2 (hc h.1)
  cases cs <;> simp only [firstWord, if_neg hescape]

theorem firstWord_escape (d : Char) (hquotes : quotes ≠ .single)
    (h : firstWord quotes cs = some (word, after)) :
    firstWord quotes ('\\' :: d :: cs) = some ('\\' :: d :: word, after) := by
  simp [firstWord, hquotes, h]

theorem firstWord_of_endsWord (h : EndsWord cs) : firstWord .none cs = some ([], cs) := by
  cases cs with
  | nil => rfl
  | cons c cs =>
    have hblank : isBlank c = true := h c rfl
    have hplain : c ≠ '\\' ∧ c ≠ '\'' ∧ c ≠ '"' := by
      refine ⟨?_, ?_, ?_⟩ <;> (rintro rfl; cases hblank)
    simp [firstWord_cons, hplain, hblank]

theorem firstWord_single {body : List Char} (hbody : '\'' ∉ body)
    (h : firstWord .none cs = some (word, after)) :
    firstWord .single (body ++ '\'' :: cs) = some (body ++ '\'' :: word, after) := by
  induction body with
  | nil => simp [firstWord_cons, h]
  | cons c body ih =>
    simp only [List.mem_cons, not_or] at hbody
    simp [firstWord_cons, Ne.symm hbody.1, ih hbody.2]

theorem firstWord_double {body inside : List Char} (hbody : SaysInside body inside)
    (h : firstWord .none cs = some (word, after)) :
    firstWord .double (body ++ '"' :: cs) = some (body ++ '"' :: word, after) := by
  induction hbody with
  | nil => simp [firstWord_cons, h]
  | char hquote hslash _ ih => simp [firstWord_cons, hquote, hslash, ih]
  | lineBreak _ ih => exact firstWord_escape _ (by decide) ih
  | escaped _ _ ih => exact firstWord_escape _ (by decide) ih
  | kept _ _ _ ih => exact firstWord_escape _ (by decide) ih

theorem firstWord_append {w t : List Char} (h : Says w t) {rest : List Char} (hrest : EndsWord rest) :
    firstWord .none (w ++ rest) = some (w, rest) := by
  induction h with
  | nil => exact firstWord_of_endsWord hrest
  | char hc _ ih =>
    obtain ⟨hblank, hslash, hsingle, hdouble⟩ := isPlain_iff.mp hc
    simp [firstWord_cons, hslash, hsingle, hdouble, hblank, ih]
  | lineBreak _ ih => exact firstWord_escape _ (by decide) ih
  | escaped _ _ ih => exact firstWord_escape _ (by decide) ih
  | single hbody _ ih => simp [firstWord_cons, firstWord_single hbody ih]
  | double hbody _ ih => simp [firstWord_cons, firstWord_double hbody ih]

end

/-- What the scan takes up from a place outside or inside quotes. -/
def Taken : Quotes → List Char → Prop
  | .none, word => ∃ text, Says word text
  | .single, word => ∃ body w, word = body ++ '\'' :: w ∧ '\'' ∉ body ∧ ∃ text, Says w text
  | .double, word =>
    ∃ body w, word = body ++ '"' :: w ∧ (∃ inside, SaysInside body inside) ∧ ∃ text, Says w text

theorem says_escape {w t : List Char} (h : Says w t) (c : Char) :
    ∃ t', Says ('\\' :: c :: w) t' := by
  by_cases hbreak : c = '\n'
  · exact ⟨t, hbreak ▸ .lineBreak h⟩
  · exact ⟨c :: t, .escaped hbreak h⟩

theorem saysInside_escape {w t : List Char} (h : SaysInside w t) (c : Char) :
    ∃ t', SaysInside ('\\' :: c :: w) t' := by
  by_cases hbreak : c = '\n'
  · exact ⟨t, hbreak ▸ .lineBreak h⟩
  · cases hc : isDoubleEscapable c with
    | true => exact ⟨c :: t, .escaped hc h⟩
    | false => exact ⟨'\\' :: c :: t, .kept hbreak hc h⟩

namespace Taken

variable {quotes : Quotes} {c : Char} {word : List Char}

theorem escape (h : Taken quotes word) (hquotes : quotes ≠ .single) (c : Char) :
    Taken quotes ('\\' :: c :: word) := by
  cases quotes with
  | none =>
    obtain ⟨text, h⟩ := h
    exact says_escape h c
  | single => exact absurd rfl hquotes
  | double =>
    obtain ⟨body, w, rfl, ⟨inside, hinside⟩, h⟩ := h
    exact ⟨'\\' :: c :: body, w, rfl, saysInside_escape hinside c, h⟩

theorem singleQuote (h : Taken (if quotes = .single then .none else .single) word)
    (hquotes : quotes ≠ .double) : Taken quotes ('\'' :: word) := by
  cases quotes with
  | none =>
    obtain ⟨body, w, rfl, hbody, text, h⟩ := h
    exact ⟨body ++ text, .single hbody h⟩
  | single => exact ⟨[], word, rfl, by simp, h⟩
  | double => exact absurd rfl hquotes

theorem doubleQuote (h : Taken (if quotes = .double then .none else .double) word)
    (hquotes : quotes ≠ .single) : Taken quotes ('"' :: word) := by
  cases quotes with
  | none =>
    obtain ⟨body, w, rfl, ⟨inside, hinside⟩, text, h⟩ := h
    exact ⟨inside ++ text, .double hinside h⟩
  | single => exact absurd rfl hquotes
  | double => exact ⟨[], word, rfl, ⟨[], .nil⟩, h⟩

theorem char (h : Taken quotes word) (hslash : ¬ (c = '\\' ∧ quotes ≠ .single))
    (hsingle : ¬ (c = '\'' ∧ quotes ≠ .double)) (hdouble : ¬ (c = '"' ∧ quotes ≠ .single))
    (hblank : ¬ (isBlank c = true ∧ quotes = .none)) : Taken quotes (c :: word) := by
  cases quotes with
  | none =>
    obtain ⟨text, h⟩ := h
    have hc : isPlain c = true := isPlain_iff.mpr
      ⟨by simpa using hblank, by simpa using hslash, by simpa using hsingle, by simpa using hdouble⟩
    exact ⟨c :: text, .char hc h⟩
  | single =>
    obtain ⟨body, w, rfl, hbody, h⟩ := h
    have hc : c ≠ '\'' := by simpa using hsingle
    exact ⟨c :: body, w, rfl, by simpa using ⟨hc.symm, hbody⟩, h⟩
  | double =>
    obtain ⟨body, w, rfl, ⟨inside, hinside⟩, h⟩ := h
    have hquote : c ≠ '"' := by simpa using hdouble
    have hnoslash : c ≠ '\\' := by simpa using hslash
    exact ⟨c :: body, w, rfl, ⟨c :: inside, .char hquote hnoslash hinside⟩, h⟩

end Taken

theorem taken_of_firstWord {quotes : Quotes} {cs word after : List Char}
    (h : firstWord quotes cs = some (word, after)) : Taken quotes word ∧ EndsWord after := by
  fun_induction firstWord quotes cs generalizing word after with
  | case1 =>
    cases h
    exact ⟨⟨[], .nil⟩, by simp [EndsWord]⟩
  | case2 => cases h
  | case3 => cases h
  | case4 quotes c hc d rest ih =>
    obtain ⟨⟨w, a⟩, hw, ⟨⟩⟩ := Option.map_eq_some_iff.mp h
    obtain ⟨htaken, hends⟩ := ih hw
    exact ⟨hc.1 ▸ htaken.escape hc.2 d, hends⟩
  | case5 quotes c rest _ hc ih =>
    obtain ⟨⟨w, a⟩, hw, ⟨⟩⟩ := Option.map_eq_some_iff.mp h
    obtain ⟨htaken, hends⟩ := ih hw
    exact ⟨hc.1 ▸ htaken.singleQuote hc.2, hends⟩
  | case6 quotes c rest _ _ hc ih =>
    obtain ⟨⟨w, a⟩, hw, ⟨⟩⟩ := Option.map_eq_some_iff.mp h
    obtain ⟨htaken, hends⟩ := ih hw
    exact ⟨hc.1 ▸ htaken.doubleQuote hc.2, hends⟩
  | case7 quotes c rest _ _ _ hc =>
    cases h
    obtain ⟨hblank, rfl⟩ := hc
    exact ⟨⟨[], .nil⟩, by simpa [EndsWord] using hblank⟩
  | case8 quotes c rest hslash hsingle hdouble hblank ih =>
    obtain ⟨⟨w, a⟩, hw, ⟨⟩⟩ := Option.map_eq_some_iff.mp h
    obtain ⟨htaken, hends⟩ := ih hw
    exact ⟨htaken.char hslash hsingle hdouble hblank, hends⟩

/-- The scan finds the end of a word exactly where the grammar closes its quotes. -/
theorem firstWord_eq_some_iff {cs word after : List Char} :
    firstWord .none cs = some (word, after) ↔
      cs = word ++ after ∧ (∃ text, Says word text) ∧ EndsWord after := by
  constructor
  · intro h
    exact ⟨firstWord_eq h, taken_of_firstWord h⟩
  · rintro ⟨rfl, ⟨text, h⟩, hends⟩
    exact firstWord_append h hends

theorem firstWord_eq_none_iff {cs : List Char} : firstWord .none cs = none ↔ ¬ Closes cs := by
  rw [Option.eq_none_iff_forall_not_mem]
  constructor
  · rintro h ⟨word, rest, text, rfl, hsays, hends⟩
    exact h (word, rest) (firstWord_append hsays hends)
  · rintro h ⟨word, after⟩ hword
    obtain ⟨rfl, ⟨text, hsays⟩, hends⟩ := firstWord_eq_some_iff.mp hword
    exact h ⟨word, after, text, rfl, hsays, hends⟩

instance (cs : List Char) : Decidable (Closes cs) :=
  decidable_of_iff (firstWord .none cs ≠ none) (by rw [Ne, firstWord_eq_none_iff, Classical.not_not])

end Arguments

end PlaybookRunner
