import Mathlib.Data.List.TakeWhile
import PlaybookRunner.Proofs.CanonicalText
import PlaybookRunner.Proofs.QuotedWords

/-!
# Pairs and free text

An argument text is written as words `key=value`, each followed by white space,
before a tail. The pairs are read as what their words say, one after the other,
whatever is quoted in them. The tail is kept as it is written, as long as the
quotes of its first word are closed: the scan looks for the end of that word
before it finds that the word is no pair.
-/

namespace PlaybookRunner

namespace Dict

variable {α β : Type}

theorem keys_put_of_mem {d : Dict α} {key : String} (h : key ∈ keys d) (value : α) :
    (d.put key value).keys = d.keys := by
  induction d with
  | nil => cases h
  | cons p d ih =>
    obtain ⟨k, v⟩ := p
    by_cases hk : k = key
    · simp [put, keys, hk]
    · have hd : key ∈ keys d := by simpa [keys, Ne.symm hk] using h
      have hkeys := ih hd
      simp only [keys] at hkeys
      simp [put, keys, hk, hkeys]

theorem ofPairs_append (pairs : List (String × α)) (p : String × α) :
    ofPairs (pairs ++ [p]) = (ofPairs pairs).put p.1 p.2 := by
  simp [ofPairs, extend]

/-- The keys of a list of pairs stand in the order in which they first come. -/
theorem keys_ofPairs (pairs : List (String × α)) :
    (ofPairs pairs).keys = (pairs.map Prod.fst).eraseDups := by
  induction pairs using List.reverseRecOn with
  | nil => rfl
  | append_singleton pairs p ih =>
    rw [ofPairs_append, List.map_append, List.eraseDups_append, ← ih]
    by_cases hmem : p.1 ∈ (ofPairs pairs).keys
    · have hold : p.1 ∈ pairs.map Prod.fst := List.mem_eraseDups.mp (ih ▸ hmem)
      have hnone : [p.1].removeAll (pairs.map Prod.fst) = [] :=
        List.filter_cons_of_neg (by simpa using hold)
      rw [keys_put_of_mem hmem, List.map_singleton, hnone]
      simp
    · have hnew : p.1 ∉ pairs.map Prod.fst := fun h => hmem (ih ▸ List.mem_eraseDups.mpr h)
      have hone : [p.1].removeAll (pairs.map Prod.fst) = [p.1] :=
        List.filter_cons_of_pos (by simpa using hnew)
      rw [put_of_notMem hmem, List.map_singleton, hone]
      simp [keys, List.eraseDups_cons]

/-- The last pair of a key wins. -/
theorem get?_ofPairs (pairs : List (String × α)) (key : String) :
    (ofPairs pairs).get? key = pairs.reverse.lookup key := by
  induction pairs using List.reverseRecOn with
  | nil => rfl
  | append_singleton pairs p ih =>
    obtain ⟨k, v⟩ := p
    rw [ofPairs_append, List.reverse_append]
    by_cases hk : key = k
    · subst hk
      simp [get?_put_self]
    · have hbeq : (key == k) = false := by simpa using hk
      simp [get?_put_of_ne _ _ hk, ih, List.lookup_cons, hbeq]

theorem lookup_map_values (f : α → β) (pairs : List (String × α)) (key : String) :
    (pairs.map fun p => (p.1, f p.2)).lookup key = (pairs.lookup key).map f := by
  induction pairs with
  | nil => rfl
  | cons p pairs ih =>
    rw [List.map_cons, List.lookup_cons, List.lookup_cons, ih]
    cases key == p.1 <;> rfl

end Dict

namespace Text

theorem breakChar_append {c : Char} {before : List Char} (h : c ∉ before) (after : List Char) :
    breakChar c (before ++ c :: after) = some (before, after) := by
  induction before with
  | nil => simp [breakChar]
  | cons a before ih =>
    simp only [List.mem_cons, not_or] at h
    simp [breakChar, Ne.symm h.1, ih h.2]

theorem breakChar_eq {c : Char} {cs before after : List Char}
    (h : breakChar c cs = some (before, after)) : cs = before ++ c :: after := by
  induction cs generalizing before with
  | nil => cases h
  | cons a cs ih =>
    rw [breakChar] at h
    split at h
    next hc =>
      cases h
      rw [hc, List.nil_append]
    next =>
      obtain ⟨⟨b, d⟩, hbreak, ⟨⟩⟩ := Option.map_eq_some_iff.mp h
      rw [ih hbreak, List.cons_append]

/-- No white space at the start. -/
def StartsInk (cs : List Char) : Prop := ∀ c ∈ cs.head?, isBlank c = false

theorem startsInk_nil : StartsInk [] := by simp [StartsInk]

instance : (cs : List Char) → Decidable (StartsInk cs)
  | [] => isTrue startsInk_nil
  | c :: _ => decidable_of_iff (isBlank c = false) (by simp [StartsInk])

theorem trimStart_of_startsInk {cs : List Char} (h : StartsInk cs) : trimStart cs = cs := by
  cases cs with
  | nil => rfl
  | cons c cs =>
    have hc : isBlank c = false := h c rfl
    simp [trimStart, hc]

theorem trimStart_append {gap cs : List Char} (hgap : allBlank gap = true) (h : StartsInk cs) :
    trimStart (gap ++ cs) = cs := by
  unfold trimStart
  rw [List.dropWhile_append_of_pos (List.all_eq_true.mp hgap)]
  exact trimStart_of_startsInk h

theorem trimEnd_ne_nil {cs : List Char} (hne : cs ≠ []) (h : StartsInk cs) : trimEnd cs ≠ [] := by
  intro hnil
  obtain ⟨c, rest, rfl⟩ := List.exists_cons_of_ne_nil hne
  have hblank := List.dropWhile_eq_nil_iff.mp (List.reverse_eq_nil_iff.mp hnil) c (by simp)
  rw [h c rfl] at hblank
  cases hblank

end Text

namespace Arguments

open Text

def isKeyChar (c : Char) : Bool := isWordLike c || c == '_'

theorem isPlain_of_isKeyChar {c : Char} (h : isKeyChar c = true) : isPlain c = true := by
  have hword : Token.isWordChar c = true := by
    rcases Bool.or_eq_true_iff.mp h with h | h
    · simp [Token.isWordChar, h]
    · rw [beq_iff_eq.mp h]
      decide
  have hne {d : Char} (hd : Token.isWordChar d = false) : c ≠ d := Token.ne_of_isWordChar hword hd
  exact isPlain_iff.mpr ⟨Token.isBlank_of_isWordChar hword, hne (by decide), hne (by decide),
    hne (by decide)⟩

theorem ne_of_isKeyChar {c d : Char} (h : isKeyChar c = true) (hd : isKeyChar d = false) :
    c ≠ d := by
  rintro rfl
  rw [h] at hd
  cases hd

theorem isKey_iff {key : List Char} :
    isKey key = true ↔ key ≠ [] ∧ ∀ c ∈ key, isKeyChar c = true := by
  simp [isKey, isKeyChar]

/-- The first word of a text, up to the first white space, is of the form `key=...`. -/
def StartsPair (cs : List Char) : Prop :=
  ∃ key value, isKey key = true ∧ cs.takeWhile (fun c => !isBlank c) = key ++ '=' :: value

section

variable {key value text : List Char}

theorem equals_notMem (h : isKey key = true) : '=' ∉ key := fun hmem =>
  ne_of_isKeyChar ((isKey_iff.mp h).2 _ hmem) (by decide) rfl

theorem startsPair_of_append (h : isKey key = true) (rest : List Char) :
    StartsPair (key ++ '=' :: rest) := by
  have hink : ∀ c ∈ key, (!isBlank c) = true := fun c hc => by
    simpa using (isPlain_iff.mp (isPlain_of_isKeyChar ((isKey_iff.mp h).2 c hc))).1
  have hequals : (!isBlank '=') = true := by decide
  refine ⟨key, rest.takeWhile fun c => !isBlank c, h, ?_⟩
  rw [List.takeWhile_append_of_pos hink, List.takeWhile_cons, if_pos hequals]

theorem not_startsPair_of_notMem {cs : List Char} (h : '=' ∉ cs.takeWhile fun c => !isBlank c) :
    ¬ StartsPair cs := by
  rintro ⟨key, value, -, hpair⟩
  exact h (by simp [hpair])

theorem says_pair (hkey : isKey key = true) (h : Says value text) :
    Says (key ++ '=' :: value) (key ++ '=' :: text) :=
  (says_of_isPlain fun c hc => isPlain_of_isKeyChar ((isKey_iff.mp hkey).2 c hc)).append
    (.char (by decide) h)

/-- A pair is one word to the shell as well, and its key is written as it is. -/
theorem shellWords?_pair (hkey : isKey key = true) (h : Says value text) :
    shellWords? (key ++ '=' :: value) = some [key ++ '=' :: text] := by
  obtain ⟨hne, hchars⟩ := isKey_iff.mp hkey
  obtain ⟨c, cs, rfl⟩ := List.exists_cons_of_ne_nil hne
  obtain ⟨hc, hcs⟩ := List.forall_mem_cons.mp hchars
  have hrest : Says (cs ++ '=' :: value) (cs ++ '=' :: text) :=
    (says_of_isPlain fun d hd => isPlain_of_isKeyChar (hcs d hd)).append (.char (by decide) h)
  exact shellWords?_word (isPlain_of_isKeyChar hc) (ne_of_isKeyChar hc (by decide)) hrest

theorem readWord_pair (hkey : isKey key = true) (h : Says value text) :
    readWord (key ++ '=' :: value) =
      .pair (String.ofList key) (Value.infer (String.ofList text)) := by
  have hbreak (after : List Char) : breakChar '=' (key ++ '=' :: after) = some (key, after) :=
    breakChar_append (equals_notMem hkey) after
  simp [readWord, hbreak, hkey, shellWords?_pair hkey h]

theorem readWord_free {word rest : List Char} (h : ¬ StartsPair (word ++ rest)) :
    readWord word = .free := by
  unfold readWord
  cases hbreak : breakChar '=' word with
  | none => rfl
  | some parts =>
    obtain ⟨key, value⟩ := parts
    have hkey : isKey key = false := by
      cases hkey : isKey key with
      | false => rfl
      | true =>
        have hword : word ++ rest = key ++ '=' :: (value ++ rest) := by simp [breakChar_eq hbreak]
        exact absurd (hword ▸ startsPair_of_append hkey (value ++ rest)) h
    simp [hkey]

end

/-- Words `key=value`, each followed by white space, before a tail, and the pairs they say. The
values are written in a way that is a parameter. -/
inductive Leads (Written : List Char → List Char → Prop) (tail : List Char) :
    List Char → List (String × String) → Prop
  | nil (h : StartsInk tail) : Leads Written tail tail []
  | cons {key text : String} {value gap rest : List Char} {pairs : List (String × String)}
      (hkey : isKey key.toList = true) (hvalue : Written value text.toList)
      (hgap : allBlank gap = true) (hsep : gap ≠ [] ∨ rest = [])
      (h : Leads Written tail rest pairs) :
      Leads Written tail (key.toList ++ '=' :: (value ++ (gap ++ rest))) ((key, text) :: pairs)

/-- A value is written between single quotes. -/
def SingleQuoted (value text : List Char) : Prop := value = singleQuote text

/-- The parameters that pairs bind, a later pair winning. -/
def inferred (pairs : List (String × String)) : Vars :=
  Dict.ofPairs (pairs.map fun p => (p.1, Value.infer p.2))

section

variable {Written : List Char → List Char → Prop} {tail cs : List Char}
  {pairs : List (String × String)}

theorem Leads.mono {Written' : List Char → List Char → Prop} (h : Leads Written tail cs pairs)
    (hle : ∀ value text, Written value text → Written' value text) :
    Leads Written' tail cs pairs := by
  induction h with
  | nil h => exact .nil h
  | cons hkey hvalue hgap hsep _ ih => exact .cons hkey (hle _ _ hvalue) hgap hsep ih

theorem Leads.startsInk (h : Leads Written tail cs pairs) : StartsInk cs := by
  cases h with
  | nil h => exact h
  | cons hkey =>
    obtain ⟨hne, hchars⟩ := isKey_iff.mp hkey
    obtain ⟨c, key, hckey⟩ := List.exists_cons_of_ne_nil hne
    rw [hckey] at hchars ⊢
    have hc := isPlain_of_isKeyChar (hchars c List.mem_cons_self)
    simpa [StartsInk] using (isPlain_iff.mp hc).1

theorem Leads.tail_startsInk (h : Leads Written tail cs pairs) : StartsInk tail := by
  induction h with
  | nil h => exact h
  | cons _ _ _ _ _ ih => exact ih

theorem readFrom_nil (vars : Vars) : readFrom vars [] = some vars := by
  rw [readFrom]
  rfl

theorem readFrom_of_not_closes (vars : Vars) (h : ¬ Closes cs) : readFrom vars cs = none := by
  have hword := firstWord_eq_none_iff.mpr h
  cases cs with
  | nil => cases hword
  | cons c cs =>
    rw [readFrom]
    simp only [List.isEmpty_cons, Bool.false_eq_true, if_false]
    split
    next => rfl
    next hsome => cases hword.symm.trans hsome

theorem readFrom_pair (vars : Vars) {key text : String} {value rest : List Char}
    (hkey : isKey key.toList = true) (hvalue : Says value text.toList) (hrest : EndsWord rest) :
    readFrom vars (key.toList ++ '=' :: (value ++ rest)) =
      readFrom (vars.put key (Value.infer text)) (trimStart rest) := by
  have hword := firstWord_append (says_pair hkey hvalue) hrest
  simp only [List.append_assoc, List.cons_append] at hword
  rw [readFrom, if_neg (by simp)]
  split
  next hnone => cases hword.symm.trans hnone
  next hsome =>
    cases hword.symm.trans hsome
    rw [dif_neg (by simp)]
    simp only [readWord_pair hkey hvalue, String.ofList_toList]

theorem readFrom_free (vars : Vars) (hne : cs ≠ []) (hink : StartsInk cs)
    (hpair : ¬ StartsPair cs) (hcloses : Closes cs) :
    readFrom vars cs = some (vars.put rawKey (.string (String.ofList (trimEnd cs)))) := by
  obtain ⟨word, rest, text, rfl, hword, hrest⟩ := hcloses
  have hfirst := firstWord_append hword hrest
  have htrim : (trimEnd (word ++ rest)).isEmpty = false := by
    simpa using trimEnd_ne_nil hne hink
  rw [readFrom, if_neg (by simpa using hne)]
  split
  next hnone => cases hfirst.symm.trans hnone
  next hsome =>
    cases hfirst.symm.trans hsome
    simp only [htrim, readWord_free hpair]
    split <;> rfl

theorem endsWord_gap {gap rest : List Char} (hgap : allBlank gap = true)
    (hsep : gap ≠ [] ∨ rest = []) : EndsWord (gap ++ rest) := by
  intro c hc
  cases gap with
  | nil =>
    obtain rfl := hsep.resolve_left (fun h => h rfl)
    cases hc
  | cons d gap =>
    obtain rfl : d = c := by simpa using hc
    exact List.all_eq_true.mp hgap d List.mem_cons_self

/-- Reading goes through the pairs and comes to the tail with what they bind. -/
theorem Leads.readFrom (h : Leads Says tail cs pairs) (vars : Vars) :
    readFrom vars cs =
      Arguments.readFrom (vars.extend (pairs.map fun p => (p.1, Value.infer p.2))) tail := by
  induction h generalizing vars with
  | nil => rfl
  | cons hkey hvalue hgap hsep h ih =>
    rw [readFrom_pair vars hkey hvalue (endsWord_gap hgap hsep),
      trimStart_append hgap h.startsInk, ih]
    rfl

theorem read?_of_leads {lead : List Char} (hlead : allBlank lead = true)
    (h : Leads Says tail cs pairs) :
    read? (String.ofList (lead ++ cs)) = Arguments.readFrom (inferred pairs) tail := by
  rw [read?, String.toList_ofList, trimStart_append hlead h.startsInk, h.readFrom]
  rfl

theorem keys_inferred (pairs : List (String × String)) :
    (inferred pairs).keys = (pairs.map Prod.fst).eraseDups := by
  rw [inferred, Dict.keys_ofPairs, List.map_map]
  rfl

theorem get?_inferred (pairs : List (String × String)) (key : String) :
    (inferred pairs).get? key = (pairs.reverse.lookup key).map Value.infer := by
  rw [inferred, Dict.get?_ofPairs, ← List.map_reverse, Dict.lookup_map_values]

/-- Whatever a text after well-quoted pairs holds, it is the free text as it is written, without
the white space around it, if the quotes of its first word are closed; only if they are not is
there no answer. -/
theorem free_text_is_kept {lead : List Char} (hlead : allBlank lead = true)
    (h : Leads Says tail cs pairs) (hne : tail ≠ []) (hpair : ¬ StartsPair tail) :
    (Closes tail → read? (String.ofList (lead ++ cs)) =
      some ((inferred pairs).put rawKey (.string (String.ofList (trimEnd tail))))) ∧
    (¬ Closes tail → read? (String.ofList (lead ++ cs)) = none) := by
  rw [read?_of_leads hlead h]
  exact ⟨readFrom_free _ hne h.tail_startsInk hpair, readFrom_of_not_closes _⟩

/-- The quotes of the first word are closed, and those of later words need not be. -/
theorem free_text_is_kept_oddQuotes :
    let tail := "echo\\ it\"'\"s > x | wc 'y\n".toList
    let cs := "chdir='/tmp dir'\nn=a\\ b  echo\\ it\"'\"s > x | wc 'y\n".toList
    let pairs := [("chdir", "/tmp dir"), ("n", "a b")]
    (Leads Says tail cs pairs ∧ tail ≠ [] ∧ ¬ StartsPair tail) ∧ Closes tail ∧
      read? " chdir='/tmp dir'\nn=a\\ b  echo\\ it\"'\"s > x | wc 'y\n" =
        some ((inferred pairs).put rawKey (.string "echo\\ it\"'\"s > x | wc 'y")) := by
  intro tail cs pairs
  have hink : StartsInk tail := by decide
  have hpath : Says "'/tmp dir'".toList "/tmp dir".toList := says_singleQuote "/tmp dir".toList
  have hletters : Says "a\\ b".toList "a b".toList :=
    .char (by decide) (.escaped (by decide) (.char (by decide) .nil))
  have hsecond := @Leads.cons Says tail "n" "a b" _ [' ', ' '] _ _ (by decide) hletters
    (by decide) (.inl (by decide)) (.nil hink)
  have hfirst := @Leads.cons Says tail "chdir" "/tmp dir" _ ['\n'] _ _ (by decide) hpath
    (by decide) (.inl (by decide)) hsecond
  have hleads : Leads Says tail cs pairs := by
    refine Eq.mp (congrArg (Leads Says tail · pairs) ?_) hfirst
    decide +kernel
  have hpair : ¬ StartsPair tail := not_startsPair_of_notMem (by decide)
  have hcloses : Closes tail := by decide +kernel
  have hlead : allBlank [' '] = true := rfl
  have hne : tail ≠ [] := by decide
  have hread := (free_text_is_kept hlead hleads hne hpair).1 hcloses
  exact ⟨⟨hleads, hne, hpair⟩, hcloses, hread⟩

/-- A single quote in plain words is taken for an open quote. -/
theorem free_text_with_open_quote :
    let text := "it's fine"
    Leads Says text.toList text.toList [] ∧ ¬ StartsPair text.toList ∧ read? text = none := by
  intro text
  have hink : StartsInk text.toList := by decide
  have hopen : ¬ Closes text.toList := by decide +kernel
  refine ⟨.nil hink, not_startsPair_of_notMem (by decide), ?_⟩
  rw [read?, trimStart_of_startsInk hink]
  exact readFrom_of_not_closes [] hopen

/-- Pairs with values between single quotes are read back: each key is bound to what its last value
stands for, in the order in which the keys first come, and a tail is the free text. -/
theorem quoted_pairs_are_read {lead : List Char} (hlead : allBlank lead = true)
    (h : Leads SingleQuoted tail cs pairs)
    (hraw : ∀ p ∈ pairs, p.1 ≠ rawKey)
    (htail : tail = [] ∨ Closes tail ∧ ¬ StartsPair tail ∧ trimEnd tail = tail) :
    ∃ vars, read? (String.ofList (lead ++ cs)) = some vars ∧
      vars.keys = (pairs.map Prod.fst).eraseDups ++ (if tail = [] then [] else [rawKey]) ∧
      (∀ key, key ≠ rawKey → vars.get? key = (pairs.reverse.lookup key).map Value.infer) ∧
      vars.get? rawKey = if tail = [] then none else some (.string (String.ofList tail)) := by
  have hsays : Leads Says tail cs pairs := h.mono fun _ _ hvalue => hvalue ▸ says_singleQuote _
  have hnew : rawKey ∉ (inferred pairs).keys := by
    rw [keys_inferred, List.mem_eraseDups, List.mem_map]
    rintro ⟨p, hp, hkey⟩
    exact hraw p hp hkey
  rw [read?_of_leads hlead hsays]
  by_cases hne : tail = []
  · subst hne
    refine ⟨inferred pairs, readFrom_nil _, ?_, fun key _ => get?_inferred pairs key, ?_⟩
    · simp [keys_inferred]
    · simp [Dict.get?_eq_none hnew]
  · obtain ⟨hcloses, hpair, htrim⟩ := htail.resolve_left hne
    have hread := readFrom_free (inferred pairs) hne hsays.tail_startsInk hpair hcloses
    rw [htrim] at hread
    refine ⟨_, hread, ?_, fun key hkey => ?_, ?_⟩
    · rw [Dict.put_of_notMem hnew, ← keys_inferred]
      simp [Dict.keys, hne]
    · rw [Dict.get?_put_of_ne _ _ hkey, get?_inferred]
    · rw [Dict.get?_put_self, if_neg hne]

/-- Values that hold quotes, an equals sign, a line break and white space, a key that comes twice,
and a tail with quotes of its own. -/
theorem quoted_pairs_are_read_twice :
    let tail := "\"$HOME\" | wc 'it".toList
    let cs := "a='it'\\''s' b='x=1 \n'\ta='' \"$HOME\" | wc 'it".toList
    let pairs := [("a", "it's"), ("b", "x=1 \n"), ("a", "")]
    Leads SingleQuoted tail cs pairs ∧
      (Closes tail ∧ ¬ StartsPair tail ∧ trimEnd tail = tail) ∧
      ∃ vars, read? (String.ofList cs) = some vars ∧ vars.keys = ["a", "b", "_raw"] ∧
        vars.get? "a" = some (Value.infer "") ∧ vars.get? "b" = some (Value.infer "x=1 \n") := by
  intro tail cs pairs
  have hink : StartsInk tail := by decide
  have hlast := @Leads.cons SingleQuoted tail "a" "" _ [' '] _ _ (by decide) rfl (by decide)
    (.inl (by decide)) (.nil hink)
  have hlater := @Leads.cons SingleQuoted tail "b" "x=1 \n" _ ['\t'] _ _ (by decide) rfl
    (by decide) (.inl (by decide)) hlast
  have hfirst := @Leads.cons SingleQuoted tail "a" "it's" _ [' '] _ _ (by decide) rfl (by decide)
    (.inl (by decide)) hlater
  have hleads : Leads SingleQuoted tail cs pairs := by
    refine Eq.mp (congrArg (Leads SingleQuoted tail · pairs) ?_) hfirst
    decide +kernel
  have hcloses : Closes tail := by decide +kernel
  have hpair : ¬ StartsPair tail := not_startsPair_of_notMem (by decide)
  have htrim : trimEnd tail = tail := by decide
  have hraw : ∀ p ∈ pairs, p.1 ≠ rawKey := by decide
  have hlead : allBlank [] = true := rfl
  refine ⟨hleads, ⟨hcloses, hpair, htrim⟩, ?_⟩
  obtain ⟨vars, hread, hkeys, hvalues, -⟩ :=
    quoted_pairs_are_read hlead hleads hraw (.inr ⟨hcloses, hpair, htrim⟩)
  exact ⟨vars, hread, hkeys, hvalues "a" (by decide), hvalues "b" (by decide)⟩

end

end Arguments

end PlaybookRunner
