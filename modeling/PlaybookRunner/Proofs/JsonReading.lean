import Mathlib.Data.List.TakeDrop
import Mathlib.Data.List.TakeWhile
import Mathlib.Tactic.SplitIfs
import PlaybookRunner.Json.Reader

/-!
# Reading goes on

What the reader has read of a text it reads in the same way when the text goes
on, unless it stopped in a number at the end of the text. So no beginning of the
text of an object is read as a tree.
-/

namespace PlaybookRunner.Json

/-! ## Numbers -/

/-- A number ends before these characters. -/
def numberStops : List Char → Bool
  | [] => true
  | c :: _ => !(c.isDigit || c == '.' || c == 'e' || c == 'E')

section

variable {cs rest more : List Char} {j : Json}

theorem span_append {p : Char → Bool} {ds : List Char} (h : cs.span p = (ds, rest))
    (hmore : rest = [] → ∀ c ∈ more.head?, p c = false) :
    (cs ++ more).span p = (ds, rest ++ more) := by
  rw [List.span_eq_takeWhile_dropWhile, Prod.mk.injEq] at h ⊢
  obtain ⟨rfl, rfl⟩ := h
  induction cs with
  | nil =>
    cases more with
    | nil => exact ⟨rfl, rfl⟩
    | cons c more => simp [hmore rfl c rfl]
  | cons c cs ih =>
    cases hc : p c with
    | false => simp [hc]
    | true => simpa [hc] using ih (by simpa [hc] using hmore)

theorem isDigit_of_numberStops (h : numberStops more = true) :
    ∀ c ∈ more.head?, c.isDigit = false := by
  cases more with
  | nil => simp
  | cons c more => simp_all [numberStops]

theorem not_mark_of_numberStops (h : numberStops more = true) :
    (∀ c ∈ more.head?, c ≠ '.') ∧ ∀ c ∈ more.head?, c ≠ 'e' ∧ c ≠ 'E' := by
  cases more with
  | nil => simp
  | cons c more => simp_all [numberStops]

theorem exponentSign_append (hcs : cs ≠ []) :
    exponentSign (cs ++ more) = ((exponentSign cs).1, (exponentSign cs).2 ++ more) := by
  obtain ⟨c, cs, rfl⟩ := List.exists_cons_of_ne_nil hcs
  rw [List.cons_append]
  unfold exponentSign
  split <;> simp_all

variable {negative : Bool} {significand : Nat} {start : Int}

theorem readExponent_append (h : readExponent negative significand start cs = some (j, rest))
    (hmore : rest = [] → numberStops more = true) :
    readExponent negative significand start (cs ++ more) = some (j, rest ++ more) := by
  have hcs : cs ≠ [] := by
    rintro rfl
    cases h
  rw [readExponent] at h ⊢
  rw [exponentSign_append hcs]
  dsimp only at h ⊢
  cases hspan : (exponentSign cs).2.span Char.isDigit with
  | mk ds after =>
    rw [hspan] at h
    dsimp only at h
    cases hdigits : Decimal.digits? ds with
    | none =>
      rw [hdigits] at h
      cases h
    | some e =>
      rw [hdigits] at h
      obtain ⟨x, hx, heq⟩ := Option.map_eq_some_iff.mp h
      cases heq
      rw [span_append hspan fun hrest => isDigit_of_numberStops (hmore hrest)]
      dsimp only
      rw [hdigits]
      dsimp only
      rw [hx]
      rfl

theorem readTail_of_not_mark (hcs : ∀ c ∈ cs.head?, c ≠ 'e' ∧ c ≠ 'E') :
    readTail negative significand start cs =
      (assemble negative significand start).map fun x => (float x, cs) := by
  unfold readTail
  split <;> simp_all

theorem readTail_append (h : readTail negative significand start cs = some (j, rest))
    (hmore : rest = [] → numberStops more = true) :
    readTail negative significand start (cs ++ more) = some (j, rest ++ more) := by
  by_cases hmark : ∀ c ∈ cs.head?, c ≠ 'e' ∧ c ≠ 'E'
  · rw [readTail_of_not_mark hmark] at h
    obtain ⟨x, hx, heq⟩ := Option.map_eq_some_iff.mp h
    cases heq
    rw [readTail_of_not_mark, hx]
    · rfl
    · cases cs with
      | nil => exact (not_mark_of_numberStops (hmore rfl)).2
      | cons c cs => exact hmark
  · cases cs with
    | nil => simp at hmark
    | cons c cs =>
      simp only [List.head?_cons, Option.mem_some_iff, forall_eq', not_and_or, not_not] at hmark
      obtain rfl | rfl := hmark
      · exact readExponent_append h hmore
      · exact readExponent_append h hmore

theorem eq_nil_of_readTail (h : readTail negative significand start [] = some (j, rest)) :
    rest = [] := by
  rw [readTail_of_not_mark (by simp)] at h
  obtain ⟨x, -, heq⟩ := Option.map_eq_some_iff.mp h
  cases heq
  rfl

theorem readFraction_append (h : readFraction negative significand start cs = some (j, rest))
    (hmore : rest = [] → numberStops more = true) :
    readFraction negative significand start (cs ++ more) = some (j, rest ++ more) := by
  rw [readFraction] at h ⊢
  cases hspan : cs.span Char.isDigit with
  | mk ds after =>
    rw [hspan] at h
    dsimp only at h
    split at h
    next => cases h
    next hds =>
      have hafter : after = [] → numberStops more = true := by
        rintro rfl
        exact hmore (eq_nil_of_readTail h)
      rw [span_append hspan fun hrest => isDigit_of_numberStops (hafter hrest)]
      dsimp only
      rw [if_neg hds]
      exact readTail_append h hmore

variable {n : Nat} {left : List Char}

theorem readAfterWhole_whole (hpoint : ∀ c ∈ cs.head?, c ≠ '.')
    (hmark : ∀ c ∈ cs.head?, c ≠ 'e' ∧ c ≠ 'E') :
    readAfterWhole negative n [] cs = some (wholeOf negative n, cs) := by
  unfold readAfterWhole
  split <;> simp_all

theorem readAfterWhole_tail (hpoint : ∀ c ∈ cs.head?, c ≠ '.')
    (hdouble : ¬(left = [] ∧ ∀ c ∈ cs.head?, c ≠ 'e' ∧ c ≠ 'E')) :
    readAfterWhole negative n left cs = readTail negative n left.length cs := by
  cases cs with
  | nil =>
    cases left with
    | nil => simp at hdouble
    | cons d left => rfl
  | cons c cs =>
    unfold readAfterWhole
    split <;> simp_all [readTail]

theorem eq_nil_of_readAfterWhole (h : readAfterWhole negative n left [] = some (j, rest)) :
    rest = [] := by
  cases left with
  | nil =>
    cases h
    rfl
  | cons d left => exact eq_nil_of_readTail h

theorem readAfterWhole_append (h : readAfterWhole negative n left cs = some (j, rest))
    (hmore : rest = [] → numberStops more = true) :
    readAfterWhole negative n left (cs ++ more) = some (j, rest ++ more) := by
  by_cases hpoint : ∀ c ∈ cs.head?, c ≠ '.'
  · by_cases hwhole : left = [] ∧ ∀ c ∈ cs.head?, c ≠ 'e' ∧ c ≠ 'E'
    · obtain ⟨rfl, hmark⟩ := hwhole
      rw [readAfterWhole_whole hpoint hmark] at h
      cases h
      cases cs with
      | nil =>
        have hstops := not_mark_of_numberStops (hmore rfl)
        exact readAfterWhole_whole hstops.1 hstops.2
      | cons c cs => exact readAfterWhole_whole hpoint hmark
    · rw [readAfterWhole_tail hpoint hwhole] at h
      cases cs with
      | nil =>
        have hstops := not_mark_of_numberStops (hmore (eq_nil_of_readTail h))
        rw [List.nil_append, readAfterWhole_tail hstops.1 fun hleft => hwhole ⟨hleft.1, by simp⟩]
        exact readTail_append h hmore
      | cons c cs =>
        have htail : readAfterWhole negative n left (c :: cs ++ more) =
            readTail negative n left.length (c :: cs ++ more) :=
          readAfterWhole_tail hpoint hwhole
        rw [htail]
        exact readTail_append h hmore
  · cases cs with
    | nil => simp at hpoint
    | cons c cs =>
      obtain rfl : c = '.' := by simpa using hpoint
      exact readFraction_append h hmore

theorem readUnsigned_append (h : readUnsigned negative cs = some (j, rest))
    (hmore : rest = [] → numberStops more = true) :
    readUnsigned negative (cs ++ more) = some (j, rest ++ more) := by
  rw [readUnsigned] at h ⊢
  cases hspan : cs.span Char.isDigit with
  | mk ds after =>
    rw [hspan] at h
    dsimp only at h
    have hafter : after = [] → numberStops more = true := by
      rintro rfl
      split at h
      next => cases h
      next => cases h
      next => exact hmore (eq_nil_of_readAfterWhole h)
    rw [span_append hspan fun hrest => isDigit_of_numberStops (hafter hrest)]
    dsimp only
    split at h
    next => cases h
    next => cases h
    next => exact readAfterWhole_append h hmore

theorem readNumber_of_ne {c : Char} (hc : c ≠ '-') :
    readNumber (c :: cs) = readUnsigned false (c :: cs) := by
  unfold readNumber
  split <;> simp_all

theorem readNumber_append (h : readNumber cs = some (j, rest))
    (hmore : rest = [] → numberStops more = true) :
    readNumber (cs ++ more) = some (j, rest ++ more) := by
  have hcs : cs ≠ [] := by
    rintro rfl
    cases h
  obtain ⟨c, cs, rfl⟩ := List.exists_cons_of_ne_nil hcs
  by_cases hc : c = '-'
  · subst hc
    exact readUnsigned_append h hmore
  · rw [readNumber_of_ne hc] at h
    rw [List.cons_append, readNumber_of_ne hc]
    exact readUnsigned_append h hmore

end

/-! ## Strings -/

/-- A part of a string stands for a character, whatever follows. -/
def Spells (part : List Char) (c : Char) : Prop :=
  ∀ acc rest, readString acc (part ++ rest) = readString (c :: acc) rest

theorem spells_plain {c : Char} (hspace : 0x20 ≤ c.toNat) (hquote : c ≠ '"') (hslash : c ≠ '\\') :
    Spells [c] c := by
  intro acc rest
  have hplain : ¬(decide (c.toNat < 0x20) || c == '\\') = true := by
    rw [Bool.or_eq_true, decide_eq_true_eq, beq_iff_eq]
    exact not_or.mpr ⟨Nat.not_lt.mpr hspace, hslash⟩
  rw [List.cons_append, List.nil_append, readString.eq_def]
  split
  case h_5 heq =>
    cases heq
    rw [if_neg hplain]
  all_goals simp_all

/-- A code is written in the notation of four digits only if it is that of a character. -/
theorem spells_unicode {a b c d : Char} {n : Nat} (hquad : hexQuad? a b c d = some n)
    (hn : n < 0xD800 ∨ 0xE000 ≤ n) : Spells ['\\', 'u', a, b, c, d] (Char.ofNat n) := by
  intro acc rest
  have hhigh : ¬(0xD800 ≤ n ∧ n < 0xDC00) := by omega
  have hlow : ¬(0xDC00 ≤ n ∧ n < 0xE000) := by omega
  have hany : ¬(0xD800 ≤ n ∧ n < 0xE000) := by omega
  simp only [List.cons_append, List.nil_append]
  by_cases hpair : ∃ e f g h rest', rest = '\\' :: 'u' :: e :: f :: g :: h :: rest'
  · obtain ⟨e, f, g, h, rest', rfl⟩ := hpair
    rw [readString.eq_2]
    simp [hquad, hhigh, hlow]
  · rw [readString.eq_3 _ _ _ _ _ _ fun e f g h rest' heq => hpair ⟨e, f, g, h, rest', heq⟩]
    simp [hquad, hany]

theorem spells_pair {a b c d e f g h : Char} {m n : Nat} (hfirst : hexQuad? a b c d = some n)
    (hn : 0xD800 ≤ n ∧ n < 0xDC00) (hsecond : hexQuad? e f g h = some m)
    (hm : 0xDC00 ≤ m ∧ m < 0xE000) :
    Spells ['\\', 'u', a, b, c, d, '\\', 'u', e, f, g, h]
      (Char.ofNat (0x10000 + (n - 0xD800) * 0x400 + (m - 0xDC00))) := by
  intro acc rest
  simp only [List.cons_append, List.nil_append]
  rw [readString.eq_2]
  simp [hfirst, hn, hsecond, hm]

/-- The letters that follow a backslash, and what they stand for. -/
def shortEscapes : List (Char × Char) :=
  [('"', '"'), ('\\', '\\'), ('/', '/'), ('b', Char.ofNat 8), ('f', Char.ofNat 12), ('n', '\n'),
    ('r', '\r'), ('t', '\t')]

theorem spells_short {e c : Char} (h : (e, c) ∈ shortEscapes) : Spells ['\\', e] c := by
  intro acc rest
  simp only [shortEscapes, List.mem_cons, Prod.mk.injEq, List.not_mem_nil, or_false] at h
  obtain ⟨rfl, rfl⟩ | ⟨rfl, rfl⟩ | ⟨rfl, rfl⟩ | ⟨rfl, rfl⟩ | ⟨rfl, rfl⟩ | ⟨rfl, rfl⟩ |
    ⟨rfl, rfl⟩ | ⟨rfl, rfl⟩ := h
  all_goals simp [readString]

variable {cs rest : List Char} {s : String}

/-- A string is at its end, or begins with a part that stands for a character. -/
theorem readString_cases {acc : List Char} (h : readString acc cs = some (s, rest)) :
    (cs = '"' :: rest ∧ s = String.ofList acc.reverse) ∨
      ∃ part c cs', cs = part ++ cs' ∧ part ≠ [] ∧ Spells part c ∧
        readString (c :: acc) cs' = some (s, rest) := by
  rw [readString.eq_def] at h
  split at h
  next => cases h; exact .inl ⟨rfl, rfl⟩
  next a b c d e f g h' rest' =>
    obtain ⟨n, hfirst, h⟩ := Option.bind_eq_some_iff.mp h
    split at h
    next hn =>
      obtain ⟨m, hsecond, h⟩ := Option.bind_eq_some_iff.mp h
      split at h
      next hm =>
        simp only [Bool.and_eq_true, decide_eq_true_eq] at hn hm
        exact .inr ⟨_, _, _, rfl, by simp, spells_pair hfirst hn hsecond hm, h⟩
      next => cases h
    next hn =>
      split at h
      next => cases h
      next hn' =>
        simp only [Bool.and_eq_true, decide_eq_true_eq] at hn hn'
        exact .inr ⟨_, _, _, rfl, by simp, spells_unicode hfirst (by omega), h⟩
  next a b c d rest' _ =>
    obtain ⟨n, hquad, h⟩ := Option.bind_eq_some_iff.mp h
    split at h
    next => cases h
    next hn =>
      simp only [Bool.and_eq_true, decide_eq_true_eq] at hn
      exact .inr ⟨_, _, _, rfl, by simp, spells_unicode hquad (by omega), h⟩
  next e rest' _ _ =>
    split at h
    case h_9 => cases h
    all_goals exact .inr ⟨_, _, _, rfl, by simp, spells_short (by decide), h⟩
  next c rest' hquote _ _ hslash =>
    split at h
    next => cases h
    next hc =>
      simp only [Bool.or_eq_true, decide_eq_true_eq, beq_iff_eq, not_or, Nat.not_lt] at hc
      exact .inr ⟨_, _, _, rfl, by simp, spells_plain hc.1 hquote hc.2, h⟩
  next => cases h

theorem readString_append {acc : List Char} (more : List Char)
    (h : readString acc cs = some (s, rest)) :
    readString acc (cs ++ more) = some (s, rest ++ more) := by
  -- The parts of a string are of several lengths, so the induction is on what is left to read.
  induction hlength : cs.length using Nat.strongRecOn generalizing acc cs with
  | _ n ih =>
    rcases readString_cases h with ⟨rfl, rfl⟩ | ⟨part, c, cs', rfl, hpart, hspells, h⟩
    · rfl
    · have hshorter : cs'.length < n := by
        have hpos := List.length_pos_iff.mpr hpart
        rw [List.length_append] at hlength
        omega
      rw [List.append_assoc, hspells]
      exact ih _ hshorter h rfl

/-! ## Values -/

section

variable {more : List Char}

theorem skipSpace_append (h : skipSpace cs ≠ []) :
    skipSpace (cs ++ more) = skipSpace cs ++ more := by
  induction cs with
  | nil => exact absurd rfl h
  | cons c cs ih =>
    rw [List.cons_append]
    unfold skipSpace at h ih ⊢
    cases hc : isSpace c with
    | false => simp [hc]
    | true => simpa [hc] using ih (by simpa [hc] using h)

theorem dropWord?_append {word : List Char} (h : dropWord? word cs = some rest) :
    dropWord? word (cs ++ more) = some (rest ++ more) := by
  unfold dropWord? at h ⊢
  split at h
  next hword =>
    cases h
    have hbegins := List.isPrefixOf_iff_prefix.mp hword
    rw [if_pos (List.isPrefixOf_iff_prefix.mpr (hbegins.trans (List.prefix_append cs more))),
      List.drop_append_of_le_length hbegins.length_le]
  next => cases h

/-- What is read with some fuel is read with more of it, whatever follows, as long as a number does
not go on. -/
structure ReadsOn (fuel : Nat) : Prop where
  value : ∀ {depth cs j rest}, readValue fuel depth cs = some (j, rest) →
    ∀ {fuel' more}, fuel ≤ fuel' → (rest = [] → numberStops more = true) →
      readValue fuel' depth (cs ++ more) = some (j, rest ++ more)
  items : ∀ {depth cs js rest}, readItems fuel depth cs = some (js, rest) →
    ∀ {fuel' more}, fuel ≤ fuel' →
      readItems fuel' depth (cs ++ more) = some (js, rest ++ more)
  fields : ∀ {depth cs fs rest}, readFields fuel depth cs = some (fs, rest) →
    ∀ {fuel' more}, fuel ≤ fuel' →
      readFields fuel' depth (cs ++ more) = some (fs, rest ++ more)

variable {fuel fuel' depth : Nat} {j : Json}

theorem skipSpace_append_of_cons {c : Char} {body : List Char} (h : skipSpace cs = c :: body) :
    skipSpace (cs ++ more) = c :: (body ++ more) := by
  rw [skipSpace_append (by rw [h]; exact List.cons_ne_nil c body), h, List.cons_append]

theorem readItems_nil : readItems fuel depth [] = none := by
  cases fuel with
  | zero => rfl
  | succ fuel => cases fuel <;> rfl

/-- The rest of an array after its bracket. -/
def readArray (fuel depth : Nat) (cs : List Char) : Option (Json × List Char) :=
  match skipSpace cs with
  | ']' :: after => some (array [], after)
  | body => (readItems fuel depth body).map fun (js, after) => (array js, after)

theorem readArray_append (ih : ReadsOn fuel) (h : readArray fuel depth cs = some (j, rest))
    (hfuel : fuel ≤ fuel') : readArray fuel' depth (cs ++ more) = some (j, rest ++ more) := by
  unfold readArray at h ⊢
  split at h
  next after hafter =>
    cases h
    rw [skipSpace_append_of_cons hafter]
    rfl
  next body hitem =>
    obtain ⟨⟨js, after⟩, hitems, heq⟩ := Option.map_eq_some_iff.mp h
    cases heq
    cases hbody : skipSpace cs with
    | nil =>
      rw [hbody, readItems_nil] at hitems
      cases hitems
    | cons d body =>
      rw [hbody] at hitems
      rw [skipSpace_append_of_cons hbody]
      split
      next heq =>
        cases heq
        exact absurd hbody (hitem _)
      next =>
        rw [← List.cons_append, ih.items hitems hfuel]
        rfl

/-- The rest of an object after its brace. -/
def readObject (fuel depth : Nat) (cs : List Char) : Option (Json × List Char) :=
  match skipSpace cs with
  | [] => none
  | d :: after =>
    if d == '}' then some (object [], after)
    else (readFields fuel depth (d :: after)).map fun (fs, rest) => (object fs, rest)

theorem readObject_append (ih : ReadsOn fuel) (h : readObject fuel depth cs = some (j, rest))
    (hfuel : fuel ≤ fuel') : readObject fuel' depth (cs ++ more) = some (j, rest ++ more) := by
  unfold readObject at h ⊢
  split at h
  next => cases h
  next d after hafter =>
    rw [skipSpace_append_of_cons hafter]
    dsimp only
    split at h
    next hd =>
      cases h
      rw [if_pos hd]
    next hd =>
      obtain ⟨⟨fs, after⟩, hfields, heq⟩ := Option.map_eq_some_iff.mp h
      cases heq
      rw [if_neg hd, ← List.cons_append, ih.fields hfields hfuel]
      rfl

theorem readWord_append {word : List Char} {tree : Json}
    (h : (dropWord? word cs).map (fun after => (tree, after)) = some (j, rest)) :
    (dropWord? word (cs ++ more)).map (fun after => (tree, after)) = some (j, rest ++ more) := by
  obtain ⟨after, hword, heq⟩ := Option.map_eq_some_iff.mp h
  cases heq
  rw [dropWord?_append hword]
  rfl

theorem readText_append
    (h : (readString [] cs).map (fun (s, after) => (string s, after)) = some (j, rest)) :
    (readString [] (cs ++ more)).map (fun (s, after) => (string s, after)) =
      some (j, rest ++ more) := by
  obtain ⟨⟨s, after⟩, hstring, heq⟩ := Option.map_eq_some_iff.mp h
  cases heq
  rw [readString_append more hstring]
  rfl

theorem readValue_succ : readValue (fuel + 1) depth cs =
    match skipSpace cs with
    | [] => none
    | c :: rest =>
      if c == '[' then if depth ≤ 1 then none else readArray fuel (depth - 1) rest
      else if c == '{' then if depth ≤ 1 then none else readObject fuel (depth - 1) rest
      else if c == '"' then (readString [] rest).map fun (s, after) => (string s, after)
      else if c == 'n' then (dropWord? "ull".toList rest).map fun after => (null, after)
      else if c == 't' then (dropWord? "rue".toList rest).map fun after => (bool true, after)
      else if c == 'f' then (dropWord? "alse".toList rest).map fun after => (bool false, after)
      else readNumber (c :: rest) := by
  rw [readValue]
  rfl

theorem readValue_append (ih : ReadsOn fuel)
    (h : readValue (fuel + 1) depth cs = some (j, rest)) (hfuel : fuel ≤ fuel')
    (hmore : rest = [] → numberStops more = true) :
    readValue (fuel' + 1) depth (cs ++ more) = some (j, rest ++ more) := by
  rw [readValue_succ] at h ⊢
  cases hskip : skipSpace cs with
  | nil =>
    rw [hskip] at h
    cases h
  | cons c body =>
    rw [hskip] at h
    rw [skipSpace_append_of_cons hskip]
    dsimp only at h ⊢
    split_ifs at h ⊢
    · exact readArray_append ih h hfuel
    · exact readObject_append ih h hfuel
    · exact readText_append h
    · exact readWord_append h
    · exact readWord_append h
    · exact readWord_append h
    · exact readNumber_append h hmore

/-- A comma or a bracket follows a value inside of an array or an object, so no number goes on. -/
theorem ReadsOn.inside (ih : ReadsOn fuel) (h : readValue fuel depth cs = some (j, rest))
    (hfuel : fuel ≤ fuel') {c : Char} {body : List Char} (hskip : skipSpace rest = c :: body) :
    readValue fuel' depth (cs ++ more) = some (j, rest ++ more) := by
  refine ih.value h hfuel ?_
  rintro rfl
  cases hskip

theorem readItems_append (ih : ReadsOn fuel) {js : List Json}
    (h : readItems (fuel + 1) depth cs = some (js, rest)) (hfuel : fuel ≤ fuel') :
    readItems (fuel' + 1) depth (cs ++ more) = some (js, rest ++ more) := by
  rw [readItems] at h ⊢
  obtain ⟨⟨item, after⟩, hitem, h⟩ := Option.bind_eq_some_iff.mp h
  dsimp only at h
  split at h
  next body hskip =>
    obtain ⟨⟨items, last⟩, hitems, heq⟩ := Option.bind_eq_some_iff.mp h
    cases heq
    rw [ih.inside hitem hfuel hskip]
    simp only [Option.bind_eq_bind, Option.bind_some, skipSpace_append_of_cons hskip,
      ih.items hitems hfuel]
  next body hskip =>
    cases h
    rw [ih.inside hitem hfuel hskip]
    simp only [Option.bind_eq_bind, Option.bind_some, skipSpace_append_of_cons hskip]
  next => cases h

theorem readFields_append (ih : ReadsOn fuel) {fs : List (String × Json)}
    (h : readFields (fuel + 1) depth cs = some (fs, rest)) (hfuel : fuel ≤ fuel') :
    readFields (fuel' + 1) depth (cs ++ more) = some (fs, rest ++ more) := by
  rw [readFields] at h ⊢
  split at h
  next body hskip =>
    obtain ⟨⟨key, afterKey⟩, hkey, h⟩ := Option.bind_eq_some_iff.mp h
    dsimp only at h
    split at h
    next body' hcolon =>
      obtain ⟨⟨value, after⟩, hitem, h⟩ := Option.bind_eq_some_iff.mp h
      dsimp only at h
      rw [skipSpace_append_of_cons hskip]
      simp only [Option.bind_eq_bind, readString_append more hkey, Option.bind_some,
        skipSpace_append_of_cons hcolon]
      split at h
      next body'' hcomma =>
        obtain ⟨⟨fields, last⟩, hfields, heq⟩ := Option.bind_eq_some_iff.mp h
        cases heq
        rw [ih.inside hitem hfuel hcomma]
        simp only [Option.bind_some, skipSpace_append_of_cons hcomma, ih.fields hfields hfuel]
      next c body'' hcomma hbrace =>
        split at h
        next hc =>
          cases h
          rw [ih.inside hitem hfuel hbrace]
          simp only [Option.bind_some, skipSpace_append_of_cons hbrace]
          exact if_pos hc
        next => cases h
      next => cases h
    next => cases h
  next => cases h

theorem readsOn (fuel : Nat) : ReadsOn fuel := by
  -- Each of the three readers hands on one unit of fuel less, to itself or to another of them.
  induction fuel with
  | zero =>
    constructor
    · intro depth cs j rest h
      cases h
    · intro depth cs js rest h
      cases h
    · intro depth cs fs rest h
      cases h
  | succ fuel ih =>
    constructor
    · intro depth cs j rest h fuel' more hfuel hmore
      obtain ⟨k, rfl⟩ := Nat.exists_eq_add_of_le' hfuel
      exact readValue_append ih h (Nat.le_add_left _ _) hmore
    · intro depth cs js rest h fuel' more hfuel
      obtain ⟨k, rfl⟩ := Nat.exists_eq_add_of_le' hfuel
      exact readItems_append ih h (Nat.le_add_left _ _)
    · intro depth cs fs rest h fuel' more hfuel
      obtain ⟨k, rfl⟩ := Nat.exists_eq_add_of_le' hfuel
      exact readFields_append ih h (Nat.le_add_left _ _)

theorem readValue_string (hskip : skipSpace cs = '"' :: rest) :
    readValue (fuel + 1) depth cs =
      (readString [] rest).map fun (s, after) => (string s, after) := by
  rw [readValue_succ, hskip]
  rfl

theorem readValue_array (hskip : skipSpace cs = '[' :: rest) :
    readValue (fuel + 1) depth cs =
      if depth ≤ 1 then none else readArray fuel (depth - 1) rest := by
  rw [readValue_succ, hskip]
  rfl

theorem readValue_object (hskip : skipSpace cs = '{' :: rest) :
    readValue (fuel + 1) depth cs =
      if depth ≤ 1 then none else readObject fuel (depth - 1) rest := by
  rw [readValue_succ, hskip]
  rfl

/-- A text that is no more than the beginning of an object is not read. -/
theorem read?_unfinished {q m : List Char} (hq : ∀ c ∈ q.head?, c = '{')
    (hm : m.getLast? = some '}') (hwhole : (read? (String.ofList (q ++ m))).isSome = true) :
    read? (String.ofList q) = none := by
  cases q with
  | nil => rfl
  | cons c q =>
    obtain rfl : c = '{' := hq c rfl
    have hdepth : ¬maxDepth ≤ 1 := by decide
    rw [read?, String.toList_ofList, readValue_object rfl, if_neg hdepth]
    cases hobject : readObject (2 * (String.ofList ('{' :: q)).length + 1) (maxDepth - 1) q with
    | none => rfl
    | some p =>
      -- The whole text would be read in the same way, up to a rest that is not blank.
      obtain ⟨j, rest⟩ := p
      have hfuel : 2 * (String.ofList ('{' :: q)).length + 1 ≤
          2 * (String.ofList ('{' :: (q ++ m))).length + 1 := by
        simp only [String.length_ofList, List.length_cons, List.length_append]
        omega
      have hlast : '}' ∈ rest ++ m := List.mem_append_right _ (List.mem_of_getLast? hm)
      have hblank : skipSpace (rest ++ m) ≠ [] := fun hnil =>
        absurd (List.dropWhile_eq_nil_iff.mp hnil '}' hlast) (by decide)
      rw [read?, String.toList_ofList, List.cons_append, readValue_object rfl, if_neg hdepth,
        readObject_append (readsOn _) hobject hfuel] at hwhole
      simp [hblank] at hwhole

end

end PlaybookRunner.Json
