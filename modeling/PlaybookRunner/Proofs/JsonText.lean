import PlaybookRunner.Json.Printer
import PlaybookRunner.Proofs.CanonicalText
import PlaybookRunner.Proofs.JsonReading
import PlaybookRunner.Proofs.ValueTrees

/-!
# The compact text of a tree

No control character occurs in the compact text of a tree, whatever its strings
are. The text is read back as the tree as long as it is not nested too deeply
and each of its numbers is read back.
-/

namespace PlaybookRunner

namespace Text

/-- No control character is among the characters. -/
def Printed (cs : List Char) : Prop := ∀ c ∈ cs, 0x20 ≤ c.toNat

variable {c : Char} {as bs : List Char}

@[simp]
theorem printed_nil : Printed [] := by simp [Printed]

@[simp]
theorem printed_cons : Printed (c :: as) ↔ 0x20 ≤ c.toNat ∧ Printed as := List.forall_mem_cons

@[simp]
theorem printed_append : Printed (as ++ bs) ↔ Printed as ∧ Printed bs := List.forall_mem_append

theorem Printed.subset (h : Printed bs) (hsubset : as ⊆ bs) : Printed as :=
  fun c hc => h c (hsubset hc)

end Text

namespace Decimal

open Text

theorem printed_toDigits (n : Nat) : Printed (Nat.toDigits 10 n) := by
  intro c hc
  have hdigit := Nat.isDigit_of_mem_toDigits (by decide) (by decide) hc
  simp only [Char.isDigit, Bool.and_eq_true, decide_eq_true_eq] at hdigit
  exact (by decide : 0x20 ≤ '0'.toNat).trans (UInt32.le_iff_toNat_le.mp hdigit.1)

theorem printed_zeros (n : Nat) : Printed (List.replicate n '0') := by
  intro c hc
  rw [List.eq_of_mem_replicate hc]
  decide

theorem printed_positional (d : Numeral) (wholePoint : Bool) :
    Printed (d.positional wholePoint) := by
  have hdigits : Printed d.digitChars := printed_toDigits d.digits
  have htake (n : Nat) : Printed (d.digitChars.take n) := hdigits.subset (List.take_subset ..)
  have hdrop (n : Nat) : Printed (d.digitChars.drop n) := hdigits.subset (List.drop_subset ..)
  unfold Numeral.positional
  dsimp only
  split
  · cases wholePoint <;> simp [hdigits, printed_zeros]
  · split <;> simp [hdigits, htake, hdrop, printed_zeros]

theorem printed_scientific (d : Numeral) (plusSign : Bool) : Printed (d.scientific plusSign) := by
  have hdigits : Printed d.digitChars := printed_toDigits d.digits
  have hexponent := printed_toDigits d.leadingExponent.natAbs
  have hsign :
      Printed (if d.leadingExponent < 0 then ['-'] else if plusSign then ['+'] else []) := by
    split_ifs <;> simp
  unfold Numeral.scientific
  dsimp only
  split <;> simp_all

theorem printed_finite (layout : Layout) (x : Float) : Printed (layout.finite x).toList := by
  have htext : Printed (layout.text (Binary.ofFloat x).shortest) := by
    unfold Layout.text
    split
    · exact printed_positional _ _
    · exact printed_scientific _ _
  unfold Layout.finite
  dsimp only
  rw [String.toList_ofList]
  split_ifs <;> simp [htext]

theorem printed_repr (n : Int) : Printed n.repr.toList := by
  cases n with
  | ofNat m =>
    rw [toList_repr_ofNat]
    exact printed_toDigits m
  | negSucc m =>
    rw [toList_repr_negSucc]
    simp [printed_toDigits]

/-- No zero stands before other digits, which the reader would refuse. -/
theorem toDigits_ne_zero_cons (n : Nat) (c : Char) (cs : List Char) :
    Nat.toDigits 10 n ≠ '0' :: c :: cs := by
  induction n using Nat.strongRecOn generalizing c cs with
  | _ n ih =>
    rw [Nat.toDigits_eq_if (by decide)]
    split
    next => simp
    next hn =>
      intro heq
      cases hinit : Nat.toDigits 10 (n / 10) with
      | nil => exact Nat.toDigits_ne_nil hinit
      | cons d ds =>
        rw [hinit, List.cons_append, List.cons.injEq] at heq
        obtain ⟨rfl, -⟩ := heq
        cases ds with
        | nil =>
          have hvalue := Nat.ofDigitChars_ten_toDigits (n := n / 10)
          rw [hinit] at hvalue
          have hzero : n / 10 = 0 := hvalue.symm
          omega
        | cons e es => exact ih (n / 10) (by omega) e es hinit

end Decimal

namespace Json

open Text

/-- The two hexadecimal digits of a control character. -/
theorem hexDigits_control : ∀ n < 0x20,
    (if n < 16 then ['0'] else []) ++ hexDigits n = [(n / 16).digitChar, (n % 16).digitChar] ∧
      hexQuad? '0' '0' (n / 16).digitChar (n % 16).digitChar = some n ∧
      0x20 ≤ (n / 16).digitChar.toNat ∧ 0x20 ≤ (n % 16).digitChar.toNat := by
  decide

/-- A character stands for itself, or one of the short escapes or the code in hexadecimal notation
stands for it. -/
theorem escaped_cases (c : Char) :
    (escaped c = [c] ∧ 0x20 ≤ c.toNat ∧ c ≠ '"' ∧ c ≠ '\\') ∨
      (∃ e, escaped c = ['\\', e] ∧ (e, c) ∈ shortEscapes) ∨
      ∃ x y, escaped c = ['\\', 'u', '0', '0', x, y] ∧
        hexQuad? '0' '0' x y = some c.toNat ∧ c.toNat < 0x20 ∧ 0x20 ≤ x.toNat ∧ 0x20 ≤ y.toNat := by
  have hcode {n : Nat} (h : (c.toNat == n) = true) : c = Char.ofNat n := by
    rw [← beq_iff_eq.mp h, Char.ofNat_toNat]
  unfold escaped
  generalize hpad : (if c.toNat < 16 then ['0'] else []) = pad
  split_ifs with hquote hslash h8 h9 h10 h12 h13 hcontrol
  · exact .inr (.inl ⟨'"', rfl, by rw [beq_iff_eq.mp hquote]; decide⟩)
  · exact .inr (.inl ⟨'\\', rfl, by rw [beq_iff_eq.mp hslash]; decide⟩)
  · exact .inr (.inl ⟨'b', rfl, by rw [hcode h8]; decide⟩)
  · exact .inr (.inl ⟨'t', rfl, by rw [hcode h9]; decide⟩)
  · exact .inr (.inl ⟨'n', rfl, by rw [hcode h10]; decide⟩)
  · exact .inr (.inl ⟨'f', rfl, by rw [hcode h12]; decide⟩)
  · exact .inr (.inl ⟨'r', rfl, by rw [hcode h13]; decide⟩)
  · obtain ⟨hdigits, hquad, hx, hy⟩ := hexDigits_control c.toNat hcontrol
    refine .inr (.inr ⟨_, _, ?_, hquad, hcontrol, hx, hy⟩)
    rw [List.append_assoc, ← hpad, hdigits]
    rfl
  · exact .inl ⟨rfl, Nat.not_lt.mp hcontrol, by simpa using hquote, by simpa using hslash⟩

theorem printed_escaped (c : Char) : Printed (escaped c) := by
  have hletters : ∀ p ∈ shortEscapes, 0x20 ≤ p.1.toNat := by decide
  obtain ⟨heq, hc, -⟩ | ⟨e, heq, he⟩ | ⟨x, y, heq, -, -, hx, hy⟩ := escaped_cases c
  · simp [heq, hc]
  · simp [heq, hletters _ he]
  · simp [heq, hx, hy]

theorem spells_escaped (c : Char) : Spells (escaped c) c := by
  obtain ⟨heq, hc, hquote, hslash⟩ | ⟨e, heq, he⟩ | ⟨x, y, heq, hquad, hc, -⟩ := escaped_cases c
  · rw [heq]
    exact spells_plain hc hquote hslash
  · rw [heq]
    exact spells_short he
  · have hspells := spells_unicode hquad (.inl (by omega))
    rwa [heq, ← Char.ofNat_toNat c]

theorem printed_stringChars (s : String) : Printed (stringChars s) := by
  have hbody : Printed (s.toList.flatMap escaped) := by
    intro d hd
    obtain ⟨c, -, hc⟩ := List.mem_flatMap.mp hd
    exact printed_escaped c d hc
  simp [stringChars, hbody]

theorem itemChars_cons_cons (item next : Json) (rest : List Json) :
    itemChars (item :: next :: rest) = item.chars ++ ',' :: itemChars (next :: rest) := rfl

theorem fieldChars_cons_cons (field next : String × Json) (rest : List (String × Json)) :
    fieldChars (field :: next :: rest) =
      stringChars field.1 ++ ':' :: field.2.chars ++ ',' :: fieldChars (next :: rest) := rfl

theorem printed_itemChars {items : List Json} (h : ∀ j ∈ items, Printed j.chars) :
    Printed (itemChars items) := by
  induction items with
  | nil => exact printed_nil
  | cons item rest ih =>
    obtain ⟨hitem, hrest⟩ := List.forall_mem_cons.mp h
    cases rest with
    | nil => exact hitem
    | cons next rest =>
      rw [itemChars_cons_cons]
      simp [hitem, ih hrest]

theorem printed_fieldChars {fields : List (String × Json)} (h : ∀ p ∈ fields, Printed p.2.chars) :
    Printed (fieldChars fields) := by
  induction fields with
  | nil => exact printed_nil
  | cons field rest ih =>
    obtain ⟨hfield, hrest⟩ := List.forall_mem_cons.mp h
    have hkey := printed_stringChars field.1
    cases rest with
    | nil =>
      rw [fieldChars]
      simp [hkey, hfield]
    | cons next rest =>
      rw [fieldChars_cons_cons]
      simp [hkey, hfield, ih hrest]

theorem printed_chars (j : Json) : Printed j.chars := by
  induction j using Json.inductionOn with
  | null => simp [chars]
  | bool b => cases b <;> simp [chars]
  | int n => exact Decimal.printed_repr n
  | float x =>
    rw [chars, floatText]
    split
    · exact Decimal.printed_finite _ _
    · simp
  | string s => exact printed_stringChars s
  | array items ih => simp [chars, printed_itemChars ih]
  | object fields ih => simp [chars, printed_fieldChars ih]

/-! ## Reading back -/

theorem le_foldl_digits (n : Nat) (ds : List Char) :
    n ≤ ds.foldl (fun n c => 10 * n + (c.toNat - '0'.toNat)) n := by
  induction ds generalizing n with
  | nil => exact Nat.le_refl n
  | cons d ds ih =>
    have hstep := ih (10 * n + (d.toNat - '0'.toNat))
    rw [List.foldl_cons]
    omega

theorem takeDigits_of_lt {n : Nat} {ds : List Char}
    (h : ds.foldl (fun n c => 10 * n + (c.toNat - '0'.toNat)) n < Decimal.unsignedBound)
    (count : Nat) :
    takeDigits n count ds =
      (ds.foldl (fun n c => 10 * n + (c.toNat - '0'.toNat)) n, count + ds.length, []) := by
  induction ds generalizing n count with
  | nil => rfl
  | cons d ds ih =>
    have hnext := (le_foldl_digits (10 * n + (d.toNat - '0'.toNat)) ds).trans_lt h
    rw [takeDigits, if_pos hnext, ih h, List.foldl_cons, List.length_cons]
    simp only [Prod.mk.injEq, and_true, true_and]
    omega

variable {rest : List Char}

theorem readUnsigned_toDigits {m : Nat} (hm : m < Decimal.unsignedBound)
    (hrest : numberStops rest = true) (negative : Bool) :
    readUnsigned negative (Nat.toDigits 10 m ++ rest) = some (wholeOf negative m, rest) := by
  have hdigits : (Nat.toDigits 10 m).span Char.isDigit = (Nat.toDigits 10 m, []) := by
    have hall (c : Char) (hc : c ∈ Nat.toDigits 10 m) : c.isDigit = true :=
      Nat.isDigit_of_mem_toDigits (by decide) (by decide) hc
    rw [List.span_eq_takeWhile_dropWhile, List.takeWhile_eq_self_iff.mpr hall,
      List.dropWhile_eq_nil_iff.mpr hall]
  have htake : takeDigits 0 0 (Nat.toDigits 10 m) = (m, (Nat.toDigits 10 m).length, []) := by
    have hvalue := Nat.ofDigitChars_ten_toDigits (n := m)
    rw [Nat.ofDigitChars_eq_foldl] at hvalue
    rw [takeDigits_of_lt (by rwa [hvalue]), hvalue, Nat.zero_add]
  have hstops := not_mark_of_numberStops hrest
  rw [readUnsigned, span_append hdigits fun _ => isDigit_of_numberStops hrest]
  dsimp only
  split
  next hnil => exact absurd hnil Nat.toDigits_ne_nil
  next hzero => exact absurd hzero (Decimal.toDigits_ne_zero_cons m _ _)
  next =>
    rw [htake]
    exact readAfterWhole_whole hstops.1 hstops.2

theorem readNumber_repr {n : Int} (hlow : -(Decimal.signedBound : Int) ≤ n)
    (hhigh : n < (Decimal.unsignedBound : Int)) (hrest : numberStops rest = true) :
    readNumber (n.repr.toList ++ rest) = some (int n, rest) := by
  cases n with
  | ofNat m =>
    obtain ⟨c, cs, hchars, hc⟩ := Decimal.exists_digit_toDigits m
    have hminus : c ≠ '-' := by
      rintro rfl
      cases hc
    have hread := readUnsigned_toDigits (Int.ofNat_lt.mp hhigh) hrest false
    rw [hchars, List.cons_append] at hread
    rw [Decimal.toList_repr_ofNat, hchars, List.cons_append, readNumber_of_ne hminus, hread]
    rfl
  | negSucc m =>
    have hword : m + 1 ≤ Decimal.signedBound := by omega
    have hfits : m + 1 < Decimal.unsignedBound := hword.trans_lt (by decide)
    have hwhole : wholeOf true (m + 1) = int (Int.negSucc m) := by
      rw [wholeOf, if_pos rfl, if_neg (by simp), if_pos hword]
      rfl
    rw [Decimal.toList_repr_negSucc, ← hwhole]
    exact readUnsigned_toDigits hfits hrest true

/-- A number starts with its sign or with a digit. -/
def StartsNumber (c : Char) : Prop := c = '-' ∨ c.isDigit = true

theorem StartsNumber.ne {c d : Char} (h : StartsNumber c) (hminus : d ≠ '-')
    (hdigit : d.isDigit = false) : c ≠ d := by
  rintro rfl
  rcases h with hc | hc
  · exact hminus hc
  · rw [hdigit] at hc
    cases hc

theorem StartsNumber.isSpace_eq {c : Char} (h : StartsNumber c) : isSpace c = false := by
  simp [isSpace, h.ne (d := ' ') (by decide) (by decide), h.ne (d := '\t') (by decide) (by decide),
    h.ne (d := '\n') (by decide) (by decide), h.ne (d := '\r') (by decide) (by decide)]

theorem exists_of_readNumber {cs : List Char} {j : Json} (h : readNumber cs = some (j, rest)) :
    ∃ c body, cs = c :: body ∧ StartsNumber c := by
  cases cs with
  | nil => cases h
  | cons c body =>
    refine ⟨c, body, rfl, ?_⟩
    by_contra hc
    obtain ⟨hminus, hdigit⟩ := not_or.mp hc
    rw [readNumber_of_ne hminus, readUnsigned, List.span_eq_takeWhile_dropWhile] at h
    simp [hdigit] at h

theorem skipSpace_cons {c : Char} (hc : isSpace c = false) (cs : List Char) :
    skipSpace (c :: cs) = c :: cs := by
  simp [skipSpace, hc]

variable {fuel depth : Nat}

theorem readValue_number {c : Char} (hc : StartsNumber c) (body : List Char) :
    readValue (fuel + 1) depth (c :: body) = readNumber (c :: body) := by
  rw [readValue_succ, skipSpace_cons hc.isSpace_eq]
  simp [hc.ne (d := '[') (by decide) (by decide), hc.ne (d := '{') (by decide) (by decide),
    hc.ne (d := '"') (by decide) (by decide), hc.ne (d := 'n') (by decide) (by decide),
    hc.ne (d := 't') (by decide) (by decide), hc.ne (d := 'f') (by decide) (by decide)]

theorem readString_flatMap (cs acc : List Char) :
    readString acc (cs.flatMap escaped ++ '"' :: rest) =
      some (String.ofList (acc.reverse ++ cs), rest) := by
  induction cs generalizing acc with
  | nil =>
    rw [List.append_nil]
    rfl
  | cons c cs ih =>
    rw [List.flatMap_cons, List.append_assoc, spells_escaped, ih]
    simp

/-- What the reader takes with so many brackets left: whole numbers of the words with and without
sign, and doubles that are read back from their texts. -/
inductive Legible : Nat → Json → Prop
  | null {d : Nat} : Legible d null
  | bool {d : Nat} {b : Bool} : Legible d (bool b)
  | int {d : Nat} {n : Int} (low : -(Decimal.signedBound : Int) ≤ n)
      (high : n < (Decimal.unsignedBound : Int)) : Legible d (int n)
  | float {d : Nat} {x : Float} (text : readNumber (floatText x).toList = some (float x, [])) :
      Legible d (float x)
  | string {d : Nat} {s : String} : Legible d (string s)
  | array {d : Nat} {items : List Json} (parts : ∀ j ∈ items, Legible d j) :
      Legible (d + 1) (array items)
  | object {d : Nat} {fields : List (String × Json)} (parts : ∀ p ∈ fields, Legible d p.2) :
      Legible (d + 1) (object fields)

section

variable {d : Nat}

@[simp]
theorem legible_null : Legible d null := .null

@[simp]
theorem legible_bool (b : Bool) : Legible d (bool b) := .bool

@[simp]
theorem legible_string (s : String) : Legible d (string s) := .string

@[simp]
theorem legible_int_iff {n : Int} : Legible d (int n) ↔
    -(Decimal.signedBound : Int) ≤ n ∧ n < (Decimal.unsignedBound : Int) :=
  ⟨fun | .int low high => ⟨low, high⟩, fun h => .int h.1 h.2⟩

@[simp]
theorem legible_float_iff {x : Float} :
    Legible d (float x) ↔ readNumber (floatText x).toList = some (float x, []) :=
  ⟨fun | .float text => text, .float⟩

@[simp]
theorem legible_array_iff {items : List Json} :
    Legible (d + 1) (array items) ↔ ∀ j ∈ items, Legible d j :=
  ⟨fun | .array parts => parts, .array⟩

@[simp]
theorem legible_object_iff {fields : List (String × Json)} :
    Legible (d + 1) (object fields) ↔ ∀ p ∈ fields, Legible d p.2 :=
  ⟨fun | .object parts => parts, .object⟩

end

/-- The text of a tree is read as the tree before everything that is no part of a number. Every part
of a tree costs two units of fuel, and there are no more parts than characters. -/
def ReadsBack (depth : Nat) (j : Json) : Prop :=
  ∀ fuel rest, 2 * j.chars.length ≤ fuel → numberStops rest = true →
    readValue (fuel + 1) depth (j.chars ++ rest) = some (j, rest)

/-- The text of a tree neither is blank at its start nor ends an array there. -/
theorem exists_chars {d : Nat} {j : Json} (h : Legible d j) :
    ∃ c body, j.chars = c :: body ∧ isSpace c = false ∧ c ≠ ']' := by
  cases h with
  | null => exact ⟨_, _, rfl, rfl, by decide⟩
  | @bool _ b => cases b <;> exact ⟨_, _, rfl, rfl, by decide⟩
  | @int _ n low high =>
    have hread : readNumber (n.repr.toList ++ []) = some (int n, []) := readNumber_repr low high rfl
    rw [List.append_nil] at hread
    obtain ⟨c, body, hchars, hc⟩ := exists_of_readNumber hread
    exact ⟨c, body, hchars, hc.isSpace_eq, hc.ne (by decide) (by decide)⟩
  | float text =>
    obtain ⟨c, body, hchars, hc⟩ := exists_of_readNumber text
    exact ⟨c, body, hchars, hc.isSpace_eq, hc.ne (by decide) (by decide)⟩
  | string => exact ⟨_, _, rfl, rfl, by decide⟩
  | array => exact ⟨_, _, rfl, rfl, by decide⟩
  | object => exact ⟨_, _, rfl, rfl, by decide⟩

theorem readItems_itemChars {items : List Json} (hitems : items ≠ [])
    (h : ∀ j ∈ items, ReadsBack depth j) (hfuel : 2 * (itemChars items).length + 2 ≤ fuel) :
    readItems fuel depth (itemChars items ++ ']' :: rest) = some (items, rest) := by
  induction items generalizing fuel with
  | nil => exact absurd rfl hitems
  | cons item tail ih =>
    obtain ⟨hitem, htail⟩ := List.forall_mem_cons.mp h
    obtain ⟨k, rfl⟩ : ∃ k, fuel = k + 2 := ⟨fuel - 2, by omega⟩
    rw [readItems]
    cases tail with
    | nil =>
      change 2 * item.chars.length + 2 ≤ k + 2 at hfuel
      rw [itemChars, hitem _ _ (by omega) rfl]
      rfl
    | cons next tail =>
      rw [itemChars_cons_cons, List.length_append, List.length_cons] at hfuel
      rw [itemChars_cons_cons, List.append_assoc, List.cons_append, hitem _ _ (by omega) rfl]
      simp only [Option.bind_eq_bind, Option.bind_some, skipSpace_cons (c := ',') rfl]
      rw [ih (List.cons_ne_nil _ _) htail (by omega)]
      rfl

theorem readFields_fieldChars {fields : List (String × Json)} (hfields : fields ≠ [])
    (h : ∀ p ∈ fields, ReadsBack depth p.2)
    (hfuel : 2 * (fieldChars fields).length + 2 ≤ fuel) :
    readFields fuel depth (fieldChars fields ++ '}' :: rest) = some (fields, rest) := by
  induction fields generalizing fuel with
  | nil => exact absurd rfl hfields
  | cons field tail ih =>
    obtain ⟨key, value⟩ := field
    obtain ⟨hvalue, htail⟩ : ReadsBack depth value ∧ ∀ p ∈ tail, ReadsBack depth p.2 :=
      List.forall_mem_cons.mp h
    obtain ⟨k, rfl⟩ : ∃ k, fuel = k + 2 := ⟨fuel - 2, by omega⟩
    rw [readFields]
    cases tail with
    | nil =>
      rw [fieldChars, List.length_append, List.length_cons] at hfuel
      simp only [fieldChars, stringChars, List.cons_append, List.append_assoc, List.nil_append,
        skipSpace_cons (c := '"') rfl, skipSpace_cons (c := ':') rfl, Option.bind_eq_bind,
        readString_flatMap, Option.bind_some]
      rw [hvalue _ _ (by omega) rfl]
      simp [skipSpace_cons (c := '}') rfl]
    | cons next tail =>
      simp only [fieldChars_cons_cons, List.length_append, List.length_cons] at hfuel
      simp only [fieldChars_cons_cons, stringChars, List.cons_append, List.append_assoc,
        List.nil_append, skipSpace_cons (c := '"') rfl, skipSpace_cons (c := ':') rfl,
        Option.bind_eq_bind, readString_flatMap, Option.bind_some]
      rw [hvalue _ _ (by omega) rfl]
      simp only [Option.bind_some, skipSpace_cons (c := ',') rfl]
      rw [ih (List.cons_ne_nil _ _) htail (by omega)]
      simp

theorem readArray_itemChars {items : List Json}
    (hchars : ∀ j ∈ items, ∃ c body, j.chars = c :: body ∧ isSpace c = false ∧ c ≠ ']')
    (h : ∀ j ∈ items, ReadsBack depth j) (hfuel : 2 * (itemChars items).length + 2 ≤ fuel) :
    readArray fuel depth (itemChars items ++ ']' :: rest) = some (array items, rest) := by
  cases items with
  | nil => rfl
  | cons item tail =>
    have hread : readItems fuel depth (itemChars (item :: tail) ++ ']' :: rest) =
        some (item :: tail, rest) := readItems_itemChars (List.cons_ne_nil item tail) h hfuel
    obtain ⟨c, body, hitem, hspace, hend⟩ := hchars item List.mem_cons_self
    obtain ⟨body', hbody⟩ : ∃ body', itemChars (item :: tail) ++ ']' :: rest = c :: body' := by
      cases tail with
      | nil => exact ⟨_, by rw [itemChars, hitem, List.cons_append]⟩
      | cons next tail =>
        exact ⟨_, by rw [itemChars_cons_cons, hitem, List.cons_append, List.cons_append]⟩
    rw [hbody] at hread ⊢
    rw [readArray, skipSpace_cons hspace]
    split
    next heq =>
      cases heq
      exact absurd rfl hend
    next =>
      rw [hread]
      rfl

theorem readObject_fieldChars {fields : List (String × Json)}
    (h : ∀ p ∈ fields, ReadsBack depth p.2) (hfuel : 2 * (fieldChars fields).length + 2 ≤ fuel) :
    readObject fuel depth (fieldChars fields ++ '}' :: rest) = some (object fields, rest) := by
  cases fields with
  | nil => rfl
  | cons field tail =>
    have hread : readFields fuel depth (fieldChars (field :: tail) ++ '}' :: rest) =
        some (field :: tail, rest) := readFields_fieldChars (List.cons_ne_nil field tail) h hfuel
    obtain ⟨body, hbody⟩ : ∃ body, fieldChars (field :: tail) ++ '}' :: rest = '"' :: body := by
      cases tail <;> exact ⟨_, rfl⟩
    rw [hbody] at hread ⊢
    rw [readObject, skipSpace_cons rfl]
    dsimp only
    rw [if_neg (by decide), hread]
    rfl

theorem readsBack {d : Nat} {j : Json} (h : Legible d j) : ReadsBack (d + 1) j := by
  -- The reader refuses the last bracket it has left, so it needs one more than the tree.
  induction h with
  | null =>
    intro fuel rest _ _
    rw [readValue_succ]
    rfl
  | @bool _ b =>
    intro fuel rest _ _
    cases b <;> rw [readValue_succ] <;> rfl
  | @int d n low high =>
    intro fuel rest _ hrest
    have hread := readNumber_repr low high hrest
    obtain ⟨c, body, hchars, hc⟩ := exists_of_readNumber hread
    change readValue (fuel + 1) (d + 1) (n.repr.toList ++ rest) = _
    rw [hchars, readValue_number hc, ← hchars, hread]
  | @float d x text =>
    intro fuel rest _ hrest
    have hread := readNumber_append text fun _ => hrest
    obtain ⟨c, body, hchars, hc⟩ := exists_of_readNumber hread
    change readValue (fuel + 1) (d + 1) ((floatText x).toList ++ rest) = _
    rw [hchars, readValue_number hc, ← hchars, hread]
    rfl
  | @string d s =>
    intro fuel rest _ _
    have hread : readString [] (s.toList.flatMap escaped ++ '"' :: rest) = some (s, rest) := by
      rw [readString_flatMap, List.reverse_nil, List.nil_append, String.ofList_toList]
    rw [chars, stringChars, List.append_assoc, List.cons_append, List.cons_append,
      readValue_string (skipSpace_cons rfl _), List.nil_append, hread]
    rfl
  | @array d items parts ih =>
    intro fuel rest hfuel _
    rw [chars, List.length_append, List.length_cons, List.length_singleton] at hfuel
    rw [chars, List.append_assoc, List.cons_append, readValue_array (skipSpace_cons rfl _),
      if_neg (by omega)]
    exact readArray_itemChars (fun j hj => exists_chars (parts j hj)) ih (by omega)
  | @object d fields parts ih =>
    intro fuel rest hfuel _
    rw [chars, List.length_append, List.length_cons, List.length_singleton] at hfuel
    rw [chars, List.append_assoc, List.cons_append, readValue_object (skipSpace_cons rfl _),
      if_neg (by omega)]
    exact readObject_fieldChars ih (by omega)

/-- The compact text of a tree is read back as the tree. -/
theorem read?_compact {j : Json} (h : Legible 127 j) : read? j.compact = some j := by
  have hfuel : 2 * j.chars.length ≤ 2 * j.compact.length + 1 := by
    rw [compact, String.length_ofList]
    omega
  have hread : readValue (2 * j.compact.length + 2) maxDepth (j.chars ++ []) = some (j, []) :=
    readsBack h _ [] hfuel rfl
  rw [List.append_nil] at hread
  rw [read?, compact, String.toList_ofList, ← compact, hread]
  rfl

end Json

end PlaybookRunner
