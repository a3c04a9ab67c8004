import PlaybookRunner.Proofs.ArgumentTexts

/-!
# Two scans of quotes

Reading an argument text goes through its quotes twice: once for the end of a word, once to
split that word as the shell does. The two scans treat white space and backslashes differently,
but both follow the grammar of quoted words. A word that the first scan has delimited closes its
quotes and has no bare white space, so the second finds one shell word in it.

A text that cannot be read therefore has a place, behind some pairs, from which the first scan
finds no end. The second never fails.
-/

namespace PlaybookRunner

namespace Text

variable {c : Char} {p w t : List Char}

theorem Says.exists_of_cons (hc : isPlain c = true) (h : Says (c :: w) t) :
    ∃ t', t = c :: t' ∧ Says w t' := by
  cases h with
  | char _ h => exact ⟨_, rfl, h⟩
  | lineBreak | escaped | single | double => cases hc

/-- Plain characters at the start of a word stand for themselves. -/
theorem Says.exists_of_append (hp : ∀ c ∈ p, isPlain c = true) (h : Says (p ++ w) t) :
    ∃ t', t = p ++ t' ∧ Says w t' := by
  induction p generalizing t with
  | nil => exact ⟨t, rfl, h⟩
  | cons c p ih =>
    obtain ⟨hc, hp⟩ := List.forall_mem_cons.mp hp
    obtain ⟨t, rfl, hrest⟩ := h.exists_of_cons hc
    obtain ⟨t, rfl, hw⟩ := ih hp hrest
    exact ⟨t, rfl, hw⟩

end Text

namespace Arguments

open Text

variable {cs word after key value text tail : List Char}

/-- The value of a pair is a quoted word of its own. -/
theorem exists_says_value (hkey : isKey key = true) (h : Says (key ++ '=' :: value) text) :
    ∃ said, text = key ++ '=' :: said ∧ Says value said := by
  have hplain : ∀ c ∈ key, isPlain c = true := fun c hc =>
    isPlain_of_isKeyChar ((isKey_iff.mp hkey).2 c hc)
  obtain ⟨rest, rfl, hrest⟩ := h.exists_of_append hplain
  obtain ⟨said, rfl, hvalue⟩ := hrest.exists_of_cons (by decide)
  exact ⟨said, rfl, hvalue⟩

/-- A word with closed quotes is a pair or free text, and splitting it does not fail. -/
theorem readWord_cases (h : Says word text) :
    readWord word = .free ∨ ∃ key value said, word = key ++ '=' :: value ∧ isKey key = true ∧
      Says value said ∧ readWord word = .pair (String.ofList key) (Value.infer (String.ofList said)) := by
  cases hbreak : breakChar '=' word with
  | none =>
    left
    simp [readWord, hbreak]
  | some parts =>
    obtain ⟨key, value⟩ := parts
    by_cases hkey : isKey key = true
    · right
      have hword := breakChar_eq hbreak
      obtain ⟨said, -, hvalue⟩ := exists_says_value hkey (hword ▸ h)
      exact ⟨key, value, said, hword, hkey, hvalue, hword ▸ readWord_pair hkey hvalue⟩
    · left
      simp [readWord, hbreak, hkey]

theorem startsInk_trimStart (cs : List Char) : StartsInk (trimStart cs) := by
  intro c hc
  have hfirst := List.head?_dropWhile_not isBlank cs
  rw [trimStart] at hc
  rw [Option.mem_def.mp hc] at hfirst
  simpa using hfirst

/-- Reading fails only where the scan for the end of a word does, behind the pairs before it. -/
theorem exists_leads_of_readFrom {vars : Vars} (hink : StartsInk cs) (h : readFrom vars cs = none) :
    ∃ pairs tail, Leads Says tail cs pairs ∧ firstWord .none tail = none := by
  fun_induction readFrom vars cs with
  | case1 => cases h
  | case2 vars cs _ hword => exact ⟨[], cs, .nil hink, hword⟩
  | case3 => cases h
  | case4 vars cs _ word after hword _ hread =>
    obtain ⟨-, ⟨text, hsays⟩, -⟩ := firstWord_eq_some_iff.mp hword
    rcases readWord_cases hsays with hfree | ⟨key, value, said, -, -, -, hpair⟩
    · cases hread.symm.trans hfree
    · cases hread.symm.trans hpair
  | case5 => cases h
  | case6 vars cs _ word after hword _ name v hread ih =>
    obtain ⟨rfl, ⟨text, hsays⟩, hends⟩ := firstWord_eq_some_iff.mp hword
    rcases readWord_cases hsays with hfree | ⟨key, value, said, rfl, hkey, hvalue, hpair⟩
    · cases hread.symm.trans hfree
    · obtain ⟨pairs, tail, hrest, htail⟩ := ih (startsInk_trimStart after) h
      have hgap : allBlank (after.takeWhile isBlank) = true := by simp [allBlank, List.all_takeWhile]
      have hsep : after.takeWhile isBlank ≠ [] ∨ trimStart after = [] := by
        cases after with
        | nil => exact .inr rfl
        | cons c after => simp [hends c rfl]
      have hpairs := @Leads.cons Says tail (String.ofList key) (String.ofList said) value _ _ pairs
        (by simpa using hkey) (by simpa using hvalue) hgap hsep hrest
      refine ⟨(String.ofList key, String.ofList said) :: pairs, tail, ?_, htail⟩
      simpa [trimStart] using hpairs

/-- The scan for the end of a word and the splitting of shell words agree. A pair that the first
has delimited is one shell word, which begins with the key and says all that the value says. So
reading fails only where the scan itself does: at a tail, behind pairs, that leaves a quote or a
backslash open. -/
theorem quote_scans_agree :
    (∀ cs word after key value : List Char, firstWord .none cs = some (word, after) →
      isKey key = true → word = key ++ '=' :: value →
        ∃ said, Says value said ∧ shellWords? word = some [key ++ '=' :: said] ∧
          readWord word = .pair (String.ofList key) (Value.infer (String.ofList said))) ∧
    ∀ text : String, read? text = none ↔ ∃ lead cs pairs tail, text.toList = lead ++ cs ∧
      allBlank lead = true ∧ Leads Says tail cs pairs ∧ firstWord .none tail = none := by
  constructor
  · rintro cs word after key value hword hkey rfl
    obtain ⟨-, ⟨text, hsays⟩, -⟩ := firstWord_eq_some_iff.mp hword
    obtain ⟨said, -, hvalue⟩ := exists_says_value hkey hsays
    exact ⟨said, hvalue, shellWords?_pair hkey hvalue, readWord_pair hkey hvalue⟩
  · intro text
    constructor
    · intro hread
      obtain ⟨pairs, tail, hpairs, htail⟩ :=
        exists_leads_of_readFrom (startsInk_trimStart text.toList) hread
      have hlead : allBlank (text.toList.takeWhile isBlank) = true := by
        simp [allBlank, List.all_takeWhile]
      exact ⟨_, _, pairs, tail, List.takeWhile_append_dropWhile.symm, hlead, hpairs, htail⟩
    · rintro ⟨lead, cs, pairs, tail, htext, hlead, hpairs, htail⟩
      rw [← String.ofList_toList (s := text), htext, read?_of_leads hlead hpairs]
      exact readFrom_of_not_closes _ (firstWord_eq_none_iff.mp htail)

/-- A pair with white space in quotes, escapes inside and outside quotes, and an escaped line break,
before a word that leaves a quote open. -/
theorem quote_scans_agree_mixed :
    let value := "a\\ b'\u00a0\"'\"\\$x\\q '\"\\\n#".toList
    let said := "a b\u00a0\"$x\\q '#".toList
    let word := "k_1".toList ++ '=' :: value
    let tail := "c=\"d".toList
    (firstWord .none (word ++ '\u2003' :: tail) = some (word, '\u2003' :: tail) ∧
        isKey "k_1".toList = true) ∧
      Says value said ∧ shellWords? word = some ["k_1".toList ++ '=' :: said] ∧
      readWord word = .pair "k_1" (Value.infer (String.ofList said)) ∧
      read? (String.ofList (word ++ '\u2003' :: tail)) = none := by
  intro value said word tail
  have hword : firstWord .none (word ++ '\u2003' :: tail) = some (word, '\u2003' :: tail) := by
    decide +kernel
  have hkey : isKey "k_1".toList = true := by decide
  have hsplit : shellWords? word = some ["k_1".toList ++ '=' :: said] := by decide +kernel
  obtain ⟨said', hvalue, hsplit', hread⟩ :=
    quote_scans_agree.1 _ word _ "k_1".toList value hword hkey rfl
  obtain rfl : said = said' := by simpa using hsplit.symm.trans hsplit'
  have hpairs := @Leads.cons Says tail "k_1" (String.ofList said) value ['\u2003'] _ [] hkey
    (by rwa [String.toList_ofList]) (by decide) (.inl (by decide)) (.nil (by decide))
  have hnone : read? (String.ofList (word ++ '\u2003' :: tail)) = none := by
    refine (quote_scans_agree.2 _).mpr ⟨[], _, _, tail, ?_, rfl, hpairs, by decide +kernel⟩
    rw [String.toList_ofList]
    rfl
  exact ⟨⟨hword, hkey⟩, hvalue, hsplit, hread, hnone⟩

end Arguments

end PlaybookRunner
