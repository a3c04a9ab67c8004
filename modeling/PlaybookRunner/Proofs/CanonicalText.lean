import Mathlib.Data.List.Chain
import Mathlib.Data.List.Forall2
import PlaybookRunner.Expr.Text
import PlaybookRunner.Proofs.Linearization

/-!
# Canonical texts

The canonical text of an expression: prefix notation with one space between
items, whole numbers in decimal notation, strings between double quotes with
quotes and backslashes escaped. A canonical text without delimiters of regions
compiles to the expression it was written for.
-/

namespace PlaybookRunner

namespace Decimal

theorem digits?_toDigits (n : Nat) : digits? (Nat.toDigits 10 n) = some n := by
  have hdigits : (Nat.toDigits 10 n).all Char.isDigit = true :=
    List.all_eq_true.mpr fun c hc => Nat.isDigit_of_mem_toDigits (by decide) (by decide) hc
  have hvalue := Nat.ofDigitChars_ten_toDigits (n := n)
  rw [Nat.ofDigitChars_eq_foldl] at hvalue
  simpa [digits?, hdigits] using hvalue

theorem exists_digit_toDigits (n : Nat) :
    ∃ c rest, Nat.toDigits 10 n = c :: rest ∧ c.isDigit = true := by
  cases hchars : Nat.toDigits 10 n with
  | nil => exact absurd hchars Nat.toDigits_ne_nil
  | cons c rest =>
    refine ⟨c, rest, rfl, Nat.isDigit_of_mem_toDigits (b := 10) (n := n) (by decide) (by decide) ?_⟩
    rw [hchars]
    exact List.mem_cons_self

theorem toList_repr_ofNat (m : Nat) : (Int.ofNat m).repr.toList = Nat.toDigits 10 m :=
  String.toList_ofList

theorem toList_repr_negSucc (m : Nat) :
    (Int.negSucc m).repr.toList = '-' :: Nat.toDigits 10 (m + 1) := by
  change ("-" ++ String.ofList (Nat.toDigits 10 (m + 1))).toList = _
  rw [String.toList_append, String.toList_ofList, String.toList_ofList]
  rfl

theorem whole?_repr (i : Int) : whole? i.repr.toList = some i := by
  cases i with
  | ofNat m =>
    obtain ⟨c, rest, hchars, hc⟩ := exists_digit_toDigits m
    have hminus : c ≠ '-' := by
      rintro rfl
      cases hc
    have hplus : c ≠ '+' := by
      rintro rfl
      cases hc
    have hread := digits?_toDigits m
    rw [hchars] at hread
    rw [toList_repr_ofNat, hchars]
    simp [whole?, natural?, hminus, hplus, hread]
  | negSucc m =>
    rw [toList_repr_negSucc, whole?, digits?_toDigits]
    rfl

theorem word?_repr (n : Int64) : word? n.toInt.repr = some n := by
  simp [word?, whole?_repr, fitsWord_toInt]

end Decimal

namespace Text

/-- The codes of white space. -/
def blankCodes : List Nat :=
  [9, 10, 11, 12, 13, 0x20, 0x85, 0xA0, 0x1680, 0x2000, 0x2001, 0x2002, 0x2003, 0x2004, 0x2005,
    0x2006, 0x2007, 0x2008, 0x2009, 0x200A, 0x2028, 0x2029, 0x202F, 0x205F, 0x3000]

theorem toNat_mem_blankCodes {c : Char} (h : isBlank c = true) : c.toNat ∈ blankCodes := by
  simp only [isBlank, Bool.or_eq_true, Bool.and_eq_true, decide_eq_true_eq, beq_iff_eq] at h
  simp only [blankCodes, List.mem_cons, List.not_mem_nil, or_false]
  omega

/-- A text in which a character does not occur twice in a row is not broken there. -/
theorem breakPair_eq_none {c : Char} {cs : List Char} (h : ¬ [c, c] <:+: cs) :
    breakPair c cs = none := by
  cases hbreak : breakPair c cs with
  | none => rfl
  | some parts =>
    obtain ⟨before, after⟩ := parts
    exact absurd ⟨before, after, by simp [breakPair_eq hbreak]⟩ h

end Text

namespace Token

/-- A character of words neither is white space nor starts another token. -/
theorem isBlank_of_isWordChar {c : Char} (h : isWordChar c = true) : Text.isBlank c = false := by
  have hcodes : ∀ n ∈ Text.blankCodes, isWordChar (Char.ofNat n) = false := by decide +kernel
  by_contra hblank
  have hcode := hcodes c.toNat (Text.toNat_mem_blankCodes (by simpa using hblank))
  rw [Char.ofNat_toNat, h] at hcode
  cases hcode

theorem ne_of_isWordChar {c d : Char} (h : isWordChar c = true) (hd : isWordChar d = false) :
    c ≠ d := by
  rintro rfl
  rw [h] at hd
  cases hd

/-- No word goes on here. -/
def Stops (cs : List Char) : Prop := cs.takeWhile isWordChar = []

/-- The tokens of a text, wherever it stands. -/
def Scanned (cs : List Char) (ts : List Token) : Prop :=
  ∀ offset, ∃ located, scan offset cs = .ok located ∧ located.map Located.token = ts

/-- The tokens of a text that stands before another one. -/
def Scans (cs : List Char) (ts : List Token) : Prop :=
  ∀ rest ts', Stops rest → Scanned rest ts' → Scanned (cs ++ rest) (ts ++ ts')

theorem stops_cons {c : Char} (hc : isWordChar c = false) (cs : List Char) : Stops (c :: cs) := by
  simp [Stops, hc]

theorem scanned_nil : Scanned [] [] := fun offset => ⟨[], by rw [scan], rfl⟩

theorem scanned_bracket {c : Char} {t : Token} {cs : List Char} {ts : List Token}
    (hc : bracket? c = some t) (h : Scanned cs ts) : Scanned (c :: cs) (t :: ts) := by
  intro offset
  obtain ⟨located, hscan, rfl⟩ := h (offset + c.utf8Size)
  refine ⟨⟨t, offset⟩ :: located, ?_, rfl⟩
  simp [scan, hc, hscan, Except.map]

theorem scanned_space {cs : List Char} {ts : List Token} (h : Scanned cs ts) :
    Scanned (' ' :: cs) ts := by
  intro offset
  obtain ⟨located, hscan, rfl⟩ := h (offset + ' '.utf8Size)
  refine ⟨located, ?_, rfl⟩
  rw [scan]
  exact hscan

theorem scans_word {c : Char} {cs : List Char} (h : ∀ d ∈ c :: cs, isWordChar d = true) :
    Scans (c :: cs) [ofWord (c :: cs)] := by
  intro rest ts hstops hrest offset
  obtain ⟨hc, hcs⟩ := List.forall_mem_cons.mp h
  have htake : (cs ++ rest).takeWhile isWordChar = cs := by
    rw [List.takeWhile_append_of_pos hcs, hstops, List.append_nil]
  have hdrop : (cs ++ rest).dropWhile isWordChar = rest := by
    have hsplit := rest.takeWhile_append_dropWhile (p := isWordChar)
    rwa [hstops, List.nil_append, ← List.dropWhile_append_of_pos hcs] at hsplit
  have hbracket : bracket? c = none := by
    have hne (d : Char) (hd : isWordChar d = false) : c ≠ d := ne_of_isWordChar hc hd
    simp [bracket?, hne '(' (by decide), hne ')' (by decide), hne '[' (by decide),
      hne ']' (by decide)]
  have hquote : ¬ (c = '"' ∨ c = '\'') :=
    not_or.mpr ⟨ne_of_isWordChar hc (by decide), ne_of_isWordChar hc (by decide)⟩
  obtain ⟨located, hscan, rfl⟩ := hrest (offset + Text.byteSize (c :: cs))
  refine ⟨⟨ofWord (c :: cs), offset⟩ :: located, ?_, rfl⟩
  rw [List.cons_append, scan, hbracket]
  simp [isBlank_of_isWordChar hc, hquote, hc, htake, hdrop, hscan, Except.map]

theorem isWordChar_of_isDigit {c : Char} (h : c.isDigit = true) : isWordChar c = true := by
  have hascii : c.toNat < 0x80 := by
    simp only [Char.isDigit, Bool.and_eq_true, decide_eq_true_eq] at h
    have hnine : c.toNat ≤ '9'.toNat := UInt32.le_iff_toNat_le.mp h.2
    exact hnine.trans_lt (by decide)
  simp [isWordChar, Text.isWordLike, hascii, Char.isAlphanum, h]

theorem startsNumber_of_isDigit {c : Char} (h : c.isDigit = true) (cs : List Char) :
    startsNumber (c :: cs) = true := by
  have hminus : c ≠ '-' := by
    rintro rfl
    cases h
  have hplus : c ≠ '+' := by
    rintro rfl
    cases h
  simp [startsNumber, hminus, hplus, h]

theorem isWordChar_of_mem_repr {i : Int} {c : Char} (hc : c ∈ i.repr.toList) :
    isWordChar c = true := by
  have hdigits {m : Nat} (h : c ∈ Nat.toDigits 10 m) : isWordChar c = true :=
    isWordChar_of_isDigit (Nat.isDigit_of_mem_toDigits (by decide) (by decide) h)
  cases i with
  | ofNat m =>
    rw [Decimal.toList_repr_ofNat] at hc
    exact hdigits hc
  | negSucc m =>
    rw [Decimal.toList_repr_negSucc] at hc
    rcases List.mem_cons.mp hc with rfl | hmem
    · decide
    · exact hdigits hmem

theorem exists_startsNumber_repr (i : Int) :
    ∃ c cs, i.repr.toList = c :: cs ∧ startsNumber (c :: cs) = true := by
  cases i with
  | ofNat m =>
    obtain ⟨c, rest, hchars, hc⟩ := Decimal.exists_digit_toDigits m
    exact ⟨c, rest, by rw [Decimal.toList_repr_ofNat, hchars], startsNumber_of_isDigit hc rest⟩
  | negSucc m =>
    obtain ⟨c, rest, hchars, hc⟩ := Decimal.exists_digit_toDigits (m + 1)
    exact ⟨'-', c :: rest, by rw [Decimal.toList_repr_negSucc, hchars], hc⟩

/-- A whole number is scanned as one token, up to both ends of the words. -/
theorem scans_repr (n : Int64) : Scans n.toInt.repr.toList [int n] := by
  obtain ⟨c, cs, hchars, hstarts⟩ := exists_startsNumber_repr n.toInt
  have htoken : ofWord (c :: cs) = int n := by
    rw [ofWord, if_pos hstarts, ← hchars, String.ofList_toList, Decimal.word?_repr]
  rw [hchars, ← htoken]
  exact scans_word fun d hd => isWordChar_of_mem_repr (hchars ▸ hd)

/-- A text between quotes: quotes and backslashes are escaped. -/
def escaped (cs : List Char) : List Char :=
  cs.flatMap fun c => if c = '"' ∨ c = '\\' then ['\\', c] else [c]

theorem escaped_cons_of_special {c : Char} (hc : c = '"' ∨ c = '\\') (cs : List Char) :
    escaped (c :: cs) = '\\' :: c :: escaped cs := by
  simp [escaped, hc]

theorem escaped_cons_of_plain {c : Char} (hc : ¬ (c = '"' ∨ c = '\\')) (cs : List Char) :
    escaped (c :: cs) = c :: escaped cs := by
  simp [escaped, hc]

theorem scanString_escaped (cs rest : List Char) :
    scanString '"' (escaped cs ++ '"' :: rest) = some (cs, escaped cs ++ ['"'], rest) := by
  induction cs with
  | nil => rfl
  | cons c cs ih =>
    by_cases hc : c = '"' ∨ c = '\\'
    · have hunescape : unescape c = c := by rcases hc with rfl | rfl <;> rfl
      rw [escaped_cons_of_special hc, List.cons_append, List.cons_append, scanString, ih,
        Option.map_some, hunescape]
      rfl
    · obtain ⟨hquote, hslash⟩ := not_or.mp hc
      rw [escaped_cons_of_plain hc, List.cons_append, scanString, ih, if_neg hquote]
      · rfl
      · exact fun h => absurd h hslash
      · exact fun _ _ h => absurd h hslash

theorem scanned_string (s : String) {cs : List Char} {ts : List Token} (h : Scanned cs ts) :
    Scanned ('"' :: (escaped s.toList ++ '"' :: cs)) (string s :: ts) := by
  intro offset
  have hstring := scanString_escaped s.toList cs
  obtain ⟨located, hscan, rfl⟩ :=
    h (offset + '"'.utf8Size + Text.byteSize (escaped s.toList ++ ['"']))
  refine ⟨⟨string s, offset⟩ :: located, ?_, rfl⟩
  have hbracket : bracket? '"' = none := rfl
  have hblank : Text.isBlank '"' = false := rfl
  rw [scan, hbracket]
  simp only [hblank, Bool.false_eq_true, if_false, true_or, if_true]
  split
  next hnone => rw [hstring] at hnone; cases hnone
  next hsome =>
    cases hstring.symm.trans hsome
    rw [hscan]
    simp [Except.map]

/-- Chunks between single spaces are scanned one by one. -/
theorem scans_intercalate {chunks : List (List Char)} {tss : List (List Token)}
    (h : List.Forall₂ Scans chunks tss) : Scans ([' '].intercalate chunks) tss.flatten := by
  induction h with
  | nil => exact fun rest ts _ hrest => hrest
  | cons hfirst hothers ih =>
    cases hothers with
    | nil => simpa using hfirst
    | cons hsecond hothers =>
      intro rest ts hstops hrest
      have hspaced := hfirst _ _ (stops_cons (c := ' ') (by decide) _)
        (scanned_space (ih rest ts hstops hrest))
      simpa [List.intercalate_cons_cons] using hspaced

end Token

namespace Expr

mutual

/-- The characters of an expression; templates and doubles have none. -/
def chars : Expr → List Char
  | nil => "nil".toList
  | bool true => "true".toList
  | bool false => "false".toList
  | int n => n.toInt.repr.toList
  | float _ => []
  | string s => '"' :: (Token.escaped s.toList ++ ['"'])
  | symbol path => path.toList
  | list items => '[' :: ([' '].intercalate (charsOfEach items) ++ [']'])
  | call op args => '(' :: ([' '].intercalate (op.toList :: charsOfEach args) ++ [')'])
  | concat _ => []

/-- The characters of each of some expressions. -/
def charsOfEach : List Expr → List (List Char)
  | [] => []
  | e :: rest => chars e :: charsOfEach rest

end

/-- The canonical text of an expression. -/
def text (e : Expr) : String := String.ofList e.chars

/-- A word that names something: it is not empty, and is not taken for a number. -/
structure IsName (s : String) : Prop where
  nonempty : s.toList ≠ []
  isWordChar : ∀ c ∈ s.toList, Token.isWordChar c = true
  ofWord : Token.ofWord s.toList = .symbol s

/-- The expression has a canonical text: there are neither templates nor doubles in
it, variables and operators have names, and those of variables are not constants. -/
inductive Canonical : Expr → Prop
  | nil : Canonical nil
  | bool (b : Bool) : Canonical (bool b)
  | int (n : Int64) : Canonical (int n)
  | string (s : String) : Canonical (string s)
  | symbol {path : String} (hname : IsName path) (hpath : path ∉ ["true", "false", "nil"]) :
      Canonical (symbol path)
  | list {items : List Expr} (hitems : ∀ e ∈ items, Canonical e) : Canonical (list items)
  | call {op : String} {args : List Expr} (hname : IsName op) (hargs : ∀ e ∈ args, Canonical e) :
      Canonical (call op args)

theorem Canonical.plain {e : Expr} (h : e.Canonical) : e.Plain := by
  induction h with
  | nil => exact .nil
  | bool b => exact .bool b
  | int n => exact .int n
  | string s => exact .string s
  | symbol _ hpath => exact .symbol hpath
  | list _ ih => exact .list ih
  | call _ _ ih => exact .call _ ih

theorem IsName.scans {s : String} (h : IsName s) : Token.Scans s.toList [.symbol s] := by
  obtain ⟨hnonempty, hchars, hword⟩ := h
  rw [← hword]
  cases hs : s.toList with
  | nil => exact absurd hs hnonempty
  | cons c cs =>
    rw [hs] at hchars
    exact Token.scans_word hchars

theorem scans_each {es : List Expr} (h : ∀ e ∈ es, Token.Scans e.chars e.tokens) :
    List.Forall₂ Token.Scans (charsOfEach es) (es.map tokens) := by
  induction es with
  | nil => exact .nil
  | cons e es ih =>
    obtain ⟨he, hes⟩ := List.forall_mem_cons.mp h
    exact .cons he (ih hes)

/-- The canonical text of an expression is scanned to its linearization. -/
theorem Canonical.scans {e : Expr} (h : e.Canonical) : Token.Scans e.chars e.tokens := by
  have hword {w : String} (hname : IsName w) : Token.Scans w.toList [.symbol w] := hname.scans
  induction h with
  | nil => exact hword ⟨by decide, List.all_eq_true.mp (by decide), rfl⟩
  | bool b => cases b <;> exact hword ⟨by decide, List.all_eq_true.mp (by decide), rfl⟩
  | int n => exact Token.scans_repr n
  | string s =>
    intro rest ts _ hrest
    simpa [chars, tokens] using Token.scanned_string s hrest
  | symbol hname _ => exact hname.scans
  | @list items _ ih =>
    intro rest ts _ hrest
    have hclose := Token.scanned_bracket (c := ']') rfl hrest
    have hitems := Token.scans_intercalate (scans_each ih) _ _
      (Token.stops_cons (by decide) _) hclose
    have hopen := Token.scanned_bracket (c := '[') rfl hitems
    simpa [chars, tokens, tokensOfAll_eq, List.flatMap_def] using hopen
  | @call op args hname _ ih =>
    intro rest ts _ hrest
    have hclose := Token.scanned_bracket (c := ')') rfl hrest
    have hitems := Token.scans_intercalate (.cons hname.scans (scans_each ih)) _ _
      (Token.stops_cons (by decide) _) hclose
    have hopen := Token.scanned_bracket (c := '(') rfl hitems
    simpa [chars, tokens, tokensOfAll_eq, List.flatMap_def] using hopen

/-- A text in which no brace occurs twice in a row holds no delimiter of regions. -/
def PairFree (cs : List Char) : Prop := ¬ ['{', '{'] <:+: cs ∧ ¬ ['}', '}'] <:+: cs

theorem compile_of_canonical {e : Expr} (h : e.Canonical) (hpairs : PairFree e.chars) :
    compile e.text = .ok e := by
  have htemplate : TokenStream.isTemplate e.chars = false := by
    simp [TokenStream.isTemplate, Text.breakPair_eq_none hpairs.1, Text.breakPair_eq_none hpairs.2]
  obtain ⟨located, hscan, htokens⟩ := h.scans [] [] rfl Token.scanned_nil 0
  rw [List.append_nil] at hscan
  rw [List.append_nil] at htokens
  have hread : ofTokens located = .ok e := ofTokens_eq_ok_iff.mpr ⟨h.plain, htokens⟩
  unfold compile TokenStream.ofText TokenStream.ofExpression text
  rw [String.toList_ofList, htemplate, hscan]
  simp [Except.map, ofScan, ofStream, hread]

theorem isChain_iff_no_pair {c : Char} {cs : List Char} :
    cs.IsChain (fun a b => ¬ (a = c ∧ b = c)) ↔ ¬ [c, c] <:+: cs := by
  rw [List.isChain_iff_forall_rel_of_append_cons_cons]
  constructor
  · rintro h ⟨before, after, rfl⟩
    exact h (List.append_assoc before [c, c] after) ⟨rfl, rfl⟩
  · rintro h a b before after rfl ⟨rfl, rfl⟩
    exact h ⟨before, after, List.append_assoc before _ after⟩

/-- Quoting a text does not bring two of its characters together. -/
theorem no_pair_quoted {c : Char} (hquote : '"' ≠ c) (hslash : '\\' ≠ c) {cs : List Char}
    (h : ¬ [c, c] <:+: cs) : ¬ [c, c] <:+: '"' :: (Token.escaped cs ++ ['"']) := by
  -- Whatever precedes the text: a quote at first, later the character before.
  have hescaped (a : Char) (h : (a :: cs).IsChain fun x y => ¬ (x = c ∧ y = c)) :
      (a :: (Token.escaped cs ++ ['"'])).IsChain fun x y => ¬ (x = c ∧ y = c) := by
    clear * - h hquote hslash
    induction cs generalizing a with
    | nil => simp [Token.escaped, hquote]
    | cons b cs ih =>
      obtain ⟨hab, hcs⟩ := List.isChain_cons_cons.mp h
      have hrest := ih b hcs
      by_cases hb : b = '"' ∨ b = '\\'
      · rw [Token.escaped_cons_of_special hb]
        exact .cons_cons (by simp [hslash]) (.cons_cons (by simp [hslash]) hrest)
      · rw [Token.escaped_cons_of_plain hb]
        exact .cons_cons hab hrest
  rw [← isChain_iff_no_pair] at h ⊢
  apply hescaped
  cases cs with
  | nil => exact .singleton _
  | cons b cs => exact List.isChain_cons_cons.mpr ⟨by simp [hquote], h⟩

theorem no_pair_of_notMem {c : Char} {cs : List Char} (h : c ∉ cs) : ¬ [c, c] <:+: cs :=
  fun hpair => h (hpair.subset List.mem_cons_self)

/-- Compiling is the inverse of writing: an expression that has a canonical text
without delimiters of regions is what the text compiles to. This covers every whole
number of the language, and every string in which no brace is doubled. -/
theorem compile_text :
    (∀ e : Expr, e.Canonical → PairFree e.text.toList → compile e.text = .ok e) ∧
      (∀ n : Int64, compile (text (int n)) = .ok (int n)) ∧
      ∀ s : String, PairFree s.toList → compile (text (string s)) = .ok (string s) := by
  refine ⟨fun e he hpairs => ?_, fun n => ?_, fun s hpairs => ?_⟩
  · rw [text, String.toList_ofList] at hpairs
    exact compile_of_canonical he hpairs
  · have hbrace {c : Char} (hc : Token.isWordChar c = false) : c ∉ n.toInt.repr.toList := by
      intro hmem
      rw [Token.isWordChar_of_mem_repr hmem] at hc
      cases hc
    exact compile_of_canonical (.int n)
      ⟨no_pair_of_notMem (hbrace (by decide)), no_pair_of_notMem (hbrace (by decide))⟩
  · exact compile_of_canonical (.string s)
      ⟨no_pair_quoted (by decide) (by decide) hpairs.1,
        no_pair_quoted (by decide) (by decide) hpairs.2⟩

theorem compile_text_call :
    compile "(join [-42 \"a\\\"\x7b\"] x.y nil)" =
      .ok (call "join" [list [int (-42), string "a\"\x7b"], symbol "x.y", nil]) := by
  have hname : IsName "join" := ⟨by decide, List.all_eq_true.mp (by decide), rfl⟩
  have hpath : IsName "x.y" := ⟨by decide, List.all_eq_true.mp (by decide), rfl⟩
  have hlist : Canonical (list [int (-42), string "a\"\x7b"]) :=
    .list (by simpa using ⟨.int _, .string _⟩)
  have hcall : Canonical (call "join" [list [int (-42), string "a\"\x7b"], symbol "x.y", nil]) :=
    .call hname (by simpa using ⟨hlist, .symbol hpath (by decide), .nil⟩)
  have htext : text (call "join" [list [int (-42), string "a\"\x7b"], symbol "x.y", nil]) =
      "(join [-42 \"a\\\"\x7b\"] x.y nil)" := by
    decide +kernel
  have hpairs : PairFree "(join [-42 \"a\\\"\x7b\"] x.y nil)".toList := by
    rw [PairFree, ← isChain_iff_no_pair, ← isChain_iff_no_pair]
    decide +kernel
  rw [← htext] at hpairs ⊢
  exact compile_text.1 _ hcall hpairs

end Expr

end PlaybookRunner
