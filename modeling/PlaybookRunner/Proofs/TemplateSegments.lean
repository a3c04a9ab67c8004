import Mathlib.Data.List.Infix
import Mathlib.Data.String.Basic
import PlaybookRunner.Error
import PlaybookRunner.Proofs.CanonicalText

/-!
# The segments of a template

Scanning divides a template into literal text and regions. What it answers on success
is described by a relation with one rule for the text after the last region and one for
a region with the text before it. So no part of the text is lost: the literals and the
regions with their delimiters, in order, make it up. An error points at the delimiter or
the character that is at fault.
-/

namespace PlaybookRunner

namespace Text

@[simp] theorem byteSize_eq_utf8Len (cs : List Char) : byteSize cs = String.utf8Len cs := by
  have hfold (n : Nat) : cs.foldl (fun n c => n + c.utf8Size) n = n + String.utf8Len cs := by
    induction cs generalizing n with
    | nil => rfl
    | cons c cs ih =>
      rw [List.foldl_cons, ih, String.utf8Len_cons]
      omega
  exact (hfold 0).trans (Nat.zero_add _)

/-- From a byte offset on, the text reads like this. -/
def From (text : String) (offset : Nat) (rest : List Char) : Prop :=
  ∃ before, text.toList = before ++ rest ∧ byteSize before = offset

/-- The text between two byte offsets. -/
def between (text : String) (start stop : Nat) : String :=
  String.Pos.Raw.extract text ⟨start⟩ ⟨stop⟩

theorem from_zero (text : String) : From text 0 text.toList := ⟨[], rfl, rfl⟩

theorem From.skip {text : String} {offset next : Nat} {part rest : List Char}
    (h : From text offset (part ++ rest)) (hnext : next = offset + byteSize part) :
    From text next rest := by
  obtain ⟨before, htext, rfl⟩ := h
  exact ⟨before ++ part, by rw [htext, List.append_assoc], by simp [hnext]⟩

theorem From.next {text : String} {offset : Nat} {c : Char} {rest : List Char}
    (h : From text offset (c :: rest)) : From text (offset + c.utf8Size) rest := by
  have hsplit : From text offset ([c] ++ rest) := h
  exact hsplit.skip (by simp)

theorem From.between_eq {text : String} {offset : Nat} {part rest : List Char}
    (h : From text offset (part ++ rest)) :
    between text offset (offset + byteSize part) = String.ofList part := by
  obtain ⟨before, htext, rfl⟩ := h
  have hwhole : text = String.ofList (before ++ part ++ rest) := by
    rw [List.append_assoc, ← htext, String.ofList_toList]
  rw [between, hwhole, byteSize_eq_utf8Len, byteSize_eq_utf8Len, String.extract_of_valid]

theorem From.utf8ByteSize_eq {text : String} {offset : Nat} {part : List Char}
    (h : From text offset part) : text.utf8ByteSize = offset + byteSize part := by
  obtain ⟨before, htext, rfl⟩ := h
  rw [← String.ofList_toList (s := text), htext, String.utf8ByteSize_ofList]
  simp

/-- A text is broken at the first place where the character is doubled. -/
theorem breakPair_eq_some_iff {c : Char} {cs before after : List Char} :
    breakPair c cs = some (before, after) ↔
      cs = before ++ c :: c :: after ∧ ¬ [c, c] <:+: before ++ [c] := by
  rw [← Expr.isChain_iff_no_pair]
  constructor
  · intro h
    refine ⟨breakPair_eq h, ?_⟩
    fun_induction breakPair c cs generalizing before with
    | case1 a b rest hab =>
      cases h
      exact .singleton c
    | case2 a b rest hab ih =>
      obtain ⟨⟨before, after⟩, hbreak, heq⟩ := Option.map_eq_some_iff.mp h
      cases heq
      have hrest := breakPair_eq hbreak
      cases before with
      | nil =>
        cases hrest
        exact .cons_cons hab (.singleton c)
      | cons d before =>
        cases hrest
        exact .cons_cons hab (ih hbreak)
    | case3 => cases h
  · rintro ⟨rfl, hchain⟩
    induction before with
    | nil => simp [breakPair]
    | cons a before ih =>
      cases before with
      | nil =>
        obtain ⟨hac, -⟩ := List.isChain_cons_cons.mp hchain
        rw [List.cons_append, List.nil_append, breakPair, if_neg hac]
        simp [breakPair]
      | cons b before =>
        obtain ⟨hab, hrest⟩ := List.isChain_cons_cons.mp hchain
        have hbreak := ih hrest
        rw [List.cons_append] at hbreak
        rw [List.cons_append, List.cons_append, breakPair, if_neg hab, hbreak, Option.map_some]

theorem breakPair_eq_none_iff {c : Char} {cs : List Char} :
    breakPair c cs = none ↔ ¬ [c, c] <:+: cs := by
  refine ⟨?_, breakPair_eq_none⟩
  rintro h ⟨before, after, rfl⟩
  induction before with
  | nil => simp [breakPair] at h
  | cons a before ih =>
    cases before with
    | nil =>
      by_cases hac : a = c <;> simp [breakPair, hac] at h
    | cons b before =>
      by_cases hab : a = c ∧ b = c
      · simp [breakPair, hab] at h
      · exact ih (by simpa [breakPair, hab] using h)

/-- Before an opening delimiter, the first closing one is not found earlier if and only if
the text up to there has none. -/
theorem filter_breakPair_eq_none_iff {before after : List Char} :
    (breakPair '}' (before ++ '{' :: after)).filter (fun (early, _) => early.length < before.length)
      = none ↔ ¬ ['}', '}'] <:+: before := by
  constructor
  · intro h hpair
    cases hbreak : breakPair '}' before with
    | none => exact breakPair_eq_none_iff.mp hbreak hpair
    | some p =>
      obtain ⟨early, late⟩ := p
      obtain ⟨rfl, hfirst⟩ := breakPair_eq_some_iff.mp hbreak
      have hwhole : breakPair '}' ((early ++ '}' :: '}' :: late) ++ '{' :: after) =
          some (early, late ++ '{' :: after) :=
        breakPair_eq_some_iff.mpr ⟨by simp, hfirst⟩
      rw [hwhole] at h
      simp at h
  · intro h
    rw [Option.filter_eq_none_iff]
    rintro ⟨early, late⟩ hbreak hlt
    obtain ⟨heq, -⟩ := breakPair_eq_some_iff.mp hbreak
    rcases List.append_eq_append_iff.mp heq with ⟨more, rfl, -⟩ | ⟨more, rfl, hmore⟩
    · simp at hlt
    · cases more with
      | nil => cases hmore
      | cons c more =>
        cases more with
        | nil => cases hmore
        | cons d more =>
          simp only [List.cons_append, List.cons.injEq] at hmore
          obtain ⟨rfl, rfl, -⟩ := hmore
          exact h ⟨early, more, by simp⟩

end Text

namespace Token

/-- Literal text and, after it, the text of a region: the first opening delimiter ends the
literal text, the next closing one ends the region. -/
structure Delimits (before inner : List Char) : Prop where
  opens : ¬ ['{', '{'] <:+: before ++ ['{']
  unclosed : ¬ ['}', '}'] <:+: before
  closes : ¬ ['}', '}'] <:+: inner ++ ['}']
  flat : ¬ ['{', '{'] <:+: inner
  inked : Text.allBlank inner = false

theorem scanTemplate_plain {cs : List Char} (h : Expr.PairFree cs) (offset : Nat) :
    scanTemplate offset cs = .ok (literal? cs offset) := by
  rw [scanTemplate, Text.breakPair_eq_none h.1, Text.breakPair_eq_none h.2]

theorem scanTemplate_region {before inner : List Char} (h : Delimits before inner) (offset : Nat)
    (rest : List Char) :
    scanTemplate offset (before ++ '{' :: '{' :: (inner ++ '}' :: '}' :: rest)) = do
      let opening := offset + Text.byteSize before
      let region ← scan (opening + 2) inner
      let closing := opening + 2 + Text.byteSize inner
      let more ← scanTemplate (closing + 2) rest
      return literal? before offset ++ ⟨.openRegion, opening⟩ :: region ++
        ⟨.closeRegion, closing⟩ :: more := by
  have hopen : Text.breakPair '{' (before ++ '{' :: '{' :: (inner ++ '}' :: '}' :: rest)) =
      some (before, inner ++ '}' :: '}' :: rest) :=
    Text.breakPair_eq_some_iff.mpr ⟨rfl, h.opens⟩
  have hclose : Text.breakPair '}' (inner ++ '}' :: '}' :: rest) = some (inner, rest) :=
    Text.breakPair_eq_some_iff.mpr ⟨rfl, h.closes⟩
  rw [scanTemplate, hopen]
  dsimp only
  rw [Text.filter_breakPair_eq_none_iff.mpr h.unclosed, hclose]
  simp only [Text.breakPair_eq_none h.flat, h.inked]
  rfl

/-- What scanning a template answers: the text after the last region is one literal; before
it stand regions, each after the literal text that precedes it. -/
inductive Segmented : Nat → List Char → List Located → Prop
  | plain {offset : Nat} {cs : List Char} (h : Expr.PairFree cs) :
      Segmented offset cs (literal? cs offset)
  | region {offset opening closing : Nat} {before inner rest : List Char}
      {region more : List Located} (h : Delimits before inner)
      (hopening : opening = offset + Text.byteSize before)
      (hregion : scan (opening + 2) inner = .ok region)
      (hclosing : closing = opening + 2 + Text.byteSize inner)
      (hmore : Segmented (closing + 2) rest more) :
      Segmented offset (before ++ '{' :: '{' :: (inner ++ '}' :: '}' :: rest))
        (literal? before offset ++ ⟨.openRegion, opening⟩ :: region ++
          ⟨.closeRegion, closing⟩ :: more)

theorem scanTemplate_eq_ok_iff {offset : Nat} {cs : List Char} {located : List Located} :
    scanTemplate offset cs = .ok located ↔ Segmented offset cs located := by
  constructor
  · intro h
    fun_induction scanTemplate offset cs generalizing located
    case case2 hopen hclose =>
      cases h
      exact .plain ⟨Text.breakPair_eq_none_iff.mp hopen, Text.breakPair_eq_none_iff.mp hclose⟩
    case case7 offset cs before after hopen opening inner rest hclose start hflat hink hearly ih =>
      obtain ⟨region, hregion, h⟩ := bind_eq_ok_iff.mp h
      obtain ⟨more, hmore, h⟩ := bind_eq_ok_iff.mp h
      cases h
      obtain ⟨rfl, hopens⟩ := Text.breakPair_eq_some_iff.mp hopen
      obtain ⟨rfl, hcloses⟩ := Text.breakPair_eq_some_iff.mp hclose
      refine .region ⟨hopens, Text.filter_breakPair_eq_none_iff.mp hearly, hcloses,
        Text.breakPair_eq_none_iff.mp hflat, by simpa using hink⟩ rfl hregion rfl (ih hmore)
    all_goals cases h
  · intro h
    induction h with
    | plain h => exact scanTemplate_plain h _
    | region h hopening hregion hclosing _ ih =>
      subst hopening hclosing
      rw [scanTemplate_region h]
      dsimp only
      rw [hregion, ih]
      rfl

/-- A token of an expression, in contrast to those of a template. -/
def IsInner : Token → Prop
  | literal _ | openRegion | closeRegion => False
  | _ => True

theorem isInner_ofWord (word : List Char) : (ofWord word).IsInner := by
  unfold ofWord
  dsimp only
  split
  · split <;> trivial
  · trivial

theorem isInner_bracket {c : Char} {t : Token} (h : bracket? c = some t) : t.IsInner := by
  unfold bracket? at h
  split_ifs at h <;> cases h <;> trivial

end Token

namespace Located

/-- What a token says of its place: delimiters of regions stand at theirs, and every token
stands at some character of the text. -/
def Stands (text : String) (t : Located) : Prop :=
  match t.token with
  | .openRegion => ∃ rest, Text.From text t.offset ('{' :: '{' :: rest)
  | .closeRegion => ∃ rest, Text.From text t.offset ('}' :: '}' :: rest)
  | _ => ∃ c rest, Text.From text t.offset (c :: rest)

/-- Tokens between two byte offsets, in ascending order. -/
structure Within (text : String) (start stop : Nat) (located : List Located) : Prop where
  ascending : (located.map Located.offset).Pairwise (· < ·)
  lower : ∀ t ∈ located, start ≤ t.offset
  upper : ∀ t ∈ located, t.offset < stop
  stands : ∀ t ∈ located, t.Stands text

variable {text : String} {start middle stop : Nat} {located more : List Located}

theorem Stands.of_isInner {t : Located} (h : t.token.IsInner) {c : Char} {rest : List Char}
    (hfrom : Text.From text t.offset (c :: rest)) : t.Stands text := by
  obtain ⟨token, offset⟩ := t
  cases token with
  | literal | openRegion | closeRegion => exact h.elim
  | _ => exact ⟨c, rest, hfrom⟩

theorem Stands.from_char {t : Located} (h : t.Stands text) :
    ∃ c rest, Text.From text t.offset (c :: rest) := by
  obtain ⟨token, offset⟩ := t
  cases token with
  | openRegion | closeRegion =>
    obtain ⟨rest, hfrom⟩ := h
    exact ⟨_, _, hfrom⟩
  | _ => exact h

namespace Within

theorem nil (text : String) (start stop : Nat) : Within text start stop [] :=
  ⟨.nil, by simp, by simp, by simp⟩

theorem mono {start' stop' : Nat} (h : Within text start stop located) (hstart : start' ≤ start)
    (hstop : stop ≤ stop') : Within text start' stop' located :=
  ⟨h.ascending, fun t ht => hstart.trans (h.lower t ht), fun t ht => (h.upper t ht).trans_le hstop,
    h.stands⟩

theorem single {t : Located} (hstart : start ≤ t.offset) (hstop : t.offset < stop)
    (h : t.Stands text) : Within text start stop [t] :=
  ⟨by simp, by simpa using hstart, by simpa using hstop, by simpa using h⟩

theorem append (h : Within text start middle located) (h' : Within text middle stop more)
    (hstart : start ≤ middle) (hstop : middle ≤ stop) :
    Within text start stop (located ++ more) where
  ascending := by
    rw [List.map_append, List.pairwise_append]
    refine ⟨h.ascending, h'.ascending, fun o ho o' ho' => ?_⟩
    obtain ⟨t, ht, rfl⟩ := List.mem_map.mp ho
    obtain ⟨t', ht', rfl⟩ := List.mem_map.mp ho'
    exact (h.upper t ht).trans_le (h'.lower t' ht')
  lower := List.forall_mem_append.mpr ⟨h.lower, fun t ht => hstart.trans (h'.lower t ht)⟩
  upper := List.forall_mem_append.mpr ⟨fun t ht => (h.upper t ht).trans_le hstop, h'.upper⟩
  stands := List.forall_mem_append.mpr ⟨h.stands, h'.stands⟩

theorem cons {t : Located} (ht : Within text start middle [t]) (h : Within text middle stop located)
    (hstart : start ≤ middle) (hstop : middle ≤ stop) : Within text start stop (t :: located) :=
  ht.append h hstart hstop

end Within

end Located

namespace Token

variable {text : String}

/-- A lexeme takes up at least one byte, so the tokens after it have greater offsets. -/
theorem within_lexeme {start next : Nat} {token : Token} {c : Char} {cs rest after : List Char}
    {located : List Located} (htoken : token.IsInner)
    (hfrom : Text.From text start (c :: after)) (hnext : next = start + Text.byteSize (c :: cs))
    (h : Located.Within text next (next + Text.byteSize rest) located) :
    Located.Within text start (start + Text.byteSize (c :: cs ++ rest))
      (⟨token, start⟩ :: located) := by
  have hpos := c.utf8Size_pos
  have hstop : start + Text.byteSize (c :: cs ++ rest) = next + Text.byteSize rest := by
    simp [hnext]
    omega
  have hlt : start < next := by
    simp [hnext]
    omega
  rw [hstop]
  exact .cons (.single (Nat.le_refl _) hlt (.of_isInner htoken hfrom)) h hlt.le
    (Nat.le_add_right _ _)

/-- The tokens of an expression lie inside its text, none of them belongs to a template. -/
theorem within_scan {start : Nat} {cs after : List Char} {region : List Located}
    (hfrom : Text.From text start (cs ++ after)) (h : scan start cs = .ok region) :
    Located.Within text start (start + Text.byteSize cs) region ∧
      ∀ t ∈ region, t.token.IsInner := by
  fun_induction scan start cs generalizing region
  case case1 =>
    cases h
    exact ⟨.nil _ _ _, by simp⟩
  case case2 start c rest token hbracket ih =>
    obtain ⟨located, hrest, rfl⟩ := map_eq_ok_iff.mp h
    have hnext : start + c.utf8Size = start + Text.byteSize [c] := by simp
    obtain ⟨hwithin, hinner⟩ := ih hfrom.next hrest
    have htoken := isInner_bracket hbracket
    exact ⟨within_lexeme htoken hfrom hnext hwithin, List.forall_mem_cons.mpr ⟨htoken, hinner⟩⟩
  case case3 start c rest _ _ ih =>
    have hnext : start + c.utf8Size = start + Text.byteSize [c] := by simp
    obtain ⟨hwithin, hinner⟩ := ih hfrom.next h
    refine ⟨hwithin.mono (Nat.le_add_right _ _) ?_, hinner⟩
    simp
    omega
  case case5 start c rest _ _ _ chars raw last hstring ih =>
    obtain ⟨located, hrest, rfl⟩ := map_eq_ok_iff.mp h
    have hnext : start + c.utf8Size + Text.byteSize raw = start + Text.byteSize (c :: raw) := by
      simp
      omega
    obtain rfl := scanString_eq hstring
    rw [← List.cons_append, List.append_assoc] at hfrom
    obtain ⟨hwithin, hinner⟩ := ih (hfrom.skip hnext) hrest
    exact ⟨within_lexeme trivial hfrom hnext hwithin, List.forall_mem_cons.mpr ⟨trivial, hinner⟩⟩
  case case6 start c rest _ _ _ _ word ih =>
    obtain ⟨located, hrest, rfl⟩ := map_eq_ok_iff.mp h
    have hsplit : c :: rest = word ++ rest.dropWhile isWordChar := by
      rw [List.cons_append, List.takeWhile_append_dropWhile]
    rw [hsplit, List.append_assoc] at hfrom
    obtain ⟨hwithin, hinner⟩ := ih (hfrom.skip rfl) hrest
    have htoken := isInner_ofWord word
    rw [hsplit]
    exact ⟨within_lexeme htoken hfrom rfl hwithin, List.forall_mem_cons.mpr ⟨htoken, hinner⟩⟩
  all_goals cases h

theorem within_literal {start next : Nat} {cs rest : List Char}
    (hfrom : Text.From text start (cs ++ rest)) (hnext : next = start + Text.byteSize cs) :
    Located.Within text start next (literal? cs start) := by
  cases cs with
  | nil => exact .nil _ _ _
  | cons c cs =>
    have hpos := c.utf8Size_pos
    have hlt : start < next := by
      simp [hnext]
      omega
    exact .single (Nat.le_refl _) hlt ⟨c, cs ++ rest, hfrom⟩

section

variable {offset opening closing : Nat} {before inner rest : List Char}

/-- The places of a region and of what follows it. -/
theorem from_region
    (hfrom : Text.From text offset (before ++ '{' :: '{' :: (inner ++ '}' :: '}' :: rest)))
    (hopening : opening = offset + Text.byteSize before)
    (hclosing : closing = opening + 2 + Text.byteSize inner) :
    Text.From text opening ('{' :: '{' :: (inner ++ '}' :: '}' :: rest)) ∧
      Text.From text (opening + 2) (inner ++ '}' :: '}' :: rest) ∧
      Text.From text closing ('}' :: '}' :: rest) ∧ Text.From text (closing + 2) rest := by
  have hopen := hfrom.skip hopening
  have hinner := hopen.next.next
  have hclose := hinner.skip hclosing
  exact ⟨hopen, hinner, hclose, hclose.next.next⟩

end

theorem within_segmented {offset : Nat} {cs : List Char} {located : List Located}
    (h : Segmented offset cs located) (hfrom : Text.From text offset cs) :
    Located.Within text offset (offset + Text.byteSize cs) located := by
  induction h with
  | @plain offset cs h =>
    rw [← List.append_nil cs] at hfrom
    exact within_literal hfrom rfl
  | @region offset opening closing before inner rest region more h hopening hregion hclosing _ ih =>
    obtain ⟨hopen, hinner, hclose, hrest⟩ := from_region hfrom hopening hclosing
    have hliteral := within_literal hfrom hopening
    have hopener : Located.Within text opening (opening + 2) [⟨.openRegion, opening⟩] :=
      .single (Nat.le_refl _) (by dsimp only; omega) ⟨_, hopen⟩
    have hcloser : Located.Within text closing (closing + 2) [⟨.closeRegion, closing⟩] :=
      .single (Nat.le_refl _) (by dsimp only; omega) ⟨_, hclose⟩
    have hwithin := (within_scan hinner hregion).1
    rw [← hclosing] at hwithin
    have hstop : offset + Text.byteSize (before ++ '{' :: '{' :: (inner ++ '}' :: '}' :: rest)) =
        closing + 2 + Text.byteSize rest := by
      have hbrace : '{'.utf8Size = 1 ∧ '}'.utf8Size = 1 := ⟨rfl, rfl⟩
      simp [hopening, hclosing, hbrace]
      omega
    have hlast : closing + 2 ≤ closing + 2 + Text.byteSize rest := Nat.le_add_right _ _
    rw [hstop, List.append_assoc]
    refine hliteral.append (.cons hopener (hwithin.append (.cons hcloser (ih hrest) ?_ hlast) ?_ ?_)
      ?_ ?_) ?_ ?_ <;> omega

/-- The offset of the next opening delimiter among some tokens, or the end of the text. -/
def nextOpening (text : String) : List Located → Nat
  | [] => text.utf8ByteSize
  | ⟨.openRegion, offset⟩ :: _ => offset
  | _ :: rest => nextOpening text rest

/-- The stretches of a text that the tokens of a template stand for: a literal stands for
what it holds, a region for the text from its opening through its closing delimiter. The
offset is that of a region which is still open. -/
def stretches (text : String) : Option Nat → List Located → List String
  | _, [] => []
  | none, ⟨.literal s, _⟩ :: rest => s :: stretches text none rest
  | none, ⟨.openRegion, opening⟩ :: rest => stretches text (some opening) rest
  | some opening, ⟨.closeRegion, closing⟩ :: rest =>
    Text.between text opening (closing + 2) :: stretches text none rest
  | region, _ :: rest => stretches text region rest

theorem Delimits.pairFree {before inner : List Char} (h : Delimits before inner) :
    Expr.PairFree before :=
  ⟨fun hpair => h.opens (hpair.trans ⟨[], ['{'], rfl⟩), h.unclosed⟩

theorem Delimits.pairFree_inner {before inner : List Char} (h : Delimits before inner) :
    Expr.PairFree inner :=
  ⟨h.flat, fun hpair => h.closes (hpair.trans ⟨[], ['}'], rfl⟩)⟩

section

variable {s : String} {offset opening closing : Nat} {region more after : List Located}

theorem literal_suffix_of_inner (hinner : ∀ t ∈ region, t.token.IsInner)
    (h : ⟨.literal s, offset⟩ :: after <:+ region ++ more) :
    ⟨.literal s, offset⟩ :: after <:+ more := by
  induction region with
  | nil => exact h
  | cons t region ih =>
    obtain ⟨ht, hregion⟩ := List.forall_mem_cons.mp hinner
    rcases List.suffix_cons_iff.mp h with heq | hsuffix
    · cases heq
      exact ht.elim
    · exact ih hregion hsuffix

theorem literal_suffix_of_region (hinner : ∀ t ∈ region, t.token.IsInner)
    (h : ⟨.literal s, offset⟩ :: after <:+
      ⟨.openRegion, opening⟩ :: (region ++ ⟨.closeRegion, closing⟩ :: more)) :
    ⟨.literal s, offset⟩ :: after <:+ more := by
  rcases List.suffix_cons_iff.mp h with heq | hsuffix
  · cases heq
  · rcases List.suffix_cons_iff.mp (literal_suffix_of_inner hinner hsuffix) with heq | hmore
    · cases heq
    · exact hmore

theorem stretches_region (hinner : ∀ t ∈ region, t.token.IsInner) :
    stretches text (some opening) (region ++ ⟨.closeRegion, closing⟩ :: more) =
      Text.between text opening (closing + 2) :: stretches text none more := by
  induction region with
  | nil => rfl
  | cons t region ih =>
    obtain ⟨ht, hregion⟩ := List.forall_mem_cons.mp hinner
    obtain ⟨token, o⟩ := t
    cases token with
    | literal | openRegion | closeRegion => exact ht.elim
    | _ => exact ih hregion

end

/-- A literal reaches from its offset to the next region or to the end of the text. -/
theorem literal_of_segmented {offset : Nat} {cs : List Char} {located : List Located}
    (h : Segmented offset cs located) (hfrom : Text.From text offset cs) {s : String} {o : Nat}
    {after : List Located} (hsuffix : ⟨.literal s, o⟩ :: after <:+ located) :
    Expr.PairFree s.toList ∧ s = Text.between text o (nextOpening text after) ∧
      ∀ t ∈ after.head?, t.token = .openRegion := by
  induction h with
  | @plain offset cs h =>
    cases cs with
    | nil => simp [literal?] at hsuffix
    | cons c cs =>
      rcases List.suffix_cons_iff.mp hsuffix with heq | hnil
      · cases heq
        rw [String.toList_ofList, nextOpening, hfrom.utf8ByteSize_eq]
        rw [← List.append_nil (_ :: _)] at hfrom
        exact ⟨h, hfrom.between_eq.symm, by simp⟩
      · simp at hnil
  | @region offset opening closing before inner rest region more h hopening hregion hclosing _ ih =>
    obtain ⟨-, hinner, -, hrest⟩ := from_region hfrom hopening hclosing
    have hregion := (within_scan hinner hregion).2
    rw [List.append_assoc] at hsuffix
    cases before with
    | nil => exact ih hrest (literal_suffix_of_region hregion hsuffix)
    | cons c before =>
      rcases List.suffix_cons_iff.mp hsuffix with heq | hregions
      · cases heq
        rw [String.toList_ofList]
        refine ⟨h.pairFree, ?_, by simp⟩
        change String.ofList (c :: before) = Text.between text o opening
        rw [hopening]
        exact hfrom.between_eq.symm
      · exact ih hrest (literal_suffix_of_region hregion hregions)

theorem stretches_literal? (cs : List Char) (offset : Nat) (located : List Located) :
    String.join (stretches text none (literal? cs offset ++ located)) =
      String.ofList cs ++ String.join (stretches text none located) := by
  cases cs with
  | nil => simp [literal?]
  | cons c cs => exact String.join_cons

/-- Nothing of the text is lost: literals and regions in order make it up. -/
theorem join_stretches_of_segmented {offset : Nat} {cs : List Char} {located : List Located}
    (h : Segmented offset cs located) (hfrom : Text.From text offset cs) :
    String.join (stretches text none located) = String.ofList cs := by
  induction h with
  | @plain offset cs h =>
    rw [← List.append_nil (literal? cs offset), stretches_literal?]
    simp [stretches]
  | @region offset opening closing before inner rest region more h hopening hregion hclosing _ ih =>
    obtain ⟨hopen, hinner, -, hrest⟩ := from_region hfrom hopening hclosing
    have hslice : Text.between text opening (closing + 2) =
        String.ofList ('{' :: '{' :: (inner ++ ['}', '}'])) := by
      have hregion : Text.From text opening ('{' :: '{' :: (inner ++ ['}', '}']) ++ rest) := by
        simpa using hopen
      have hsize : opening + Text.byteSize ('{' :: '{' :: (inner ++ ['}', '}'])) = closing + 2 := by
        have hbrace : '{'.utf8Size = 1 ∧ '}'.utf8Size = 1 := ⟨rfl, rfl⟩
        simp [hclosing, hbrace]
        omega
      rw [← hregion.between_eq, hsize]
    rw [List.append_assoc, stretches_literal?, List.cons_append, stretches,
      stretches_region (within_scan hinner hregion).2, String.join_cons, hslice, ih hrest,
      ← String.ofList_append, ← String.ofList_append]
    exact congrArg String.ofList (by simp)

end Token

namespace SyntaxError

/-- What an error is about stands at its offset: an opening delimiter that no closing one
follows, a closing delimiter, an opening one before the end of another region, a region
that is blank, the quote of a string, or the character. -/
def PointsInto (text : String) : SyntaxError → Prop
  | unterminated offset =>
    ∃ rest, Text.From text offset ('{' :: '{' :: rest) ∧ ¬ ['}', '}'] <:+: rest
  | unbalanced offset => ∃ rest, Text.From text offset ('}' :: '}' :: rest)
  | nested offset => ∃ opening inner rest, ¬ ['}', '}'] <:+: inner ∧
    Text.From text opening ('{' :: '{' :: (inner ++ '{' :: '{' :: rest)) ∧
    Text.From text offset ('{' :: '{' :: rest)
  | empty offset => ∃ blank rest, Text.allBlank blank = true ∧
    Text.From text offset ('{' :: '{' :: (blank ++ '}' :: '}' :: rest))
  | unterminatedString offset => ∃ quote rest, (quote = '"' ∨ quote = '\'') ∧
    Text.From text offset (quote :: rest)
  | unexpectedChar c offset => ∃ rest, Text.From text offset (c :: rest)

end SyntaxError

namespace Token

variable {text : String}

theorem pointsInto_of_scan {start : Nat} {cs after : List Char} {e : SyntaxError}
    (hfrom : Text.From text start (cs ++ after)) (h : scan start cs = .error e) :
    e.PointsInto text := by
  fun_induction scan start cs
  case case1 => cases h
  case case2 start c rest _ _ ih =>
    exact ih hfrom.next (map_eq_error_iff.mp h)
  case case3 start c rest _ _ ih => exact ih hfrom.next h
  case case4 start c rest _ _ hquote _ =>
    cases h
    exact ⟨c, rest ++ after, hquote, hfrom⟩
  case case5 start c rest _ _ _ chars raw last hstring ih =>
    obtain rfl := scanString_eq hstring
    rw [← List.cons_append, List.append_assoc] at hfrom
    refine ih (hfrom.skip ?_) (map_eq_error_iff.mp h)
    simp
    omega
  case case6 start c rest _ _ _ _ word ih =>
    have hsplit : c :: rest = word ++ rest.dropWhile isWordChar := by
      rw [List.cons_append, List.takeWhile_append_dropWhile]
    rw [hsplit, List.append_assoc] at hfrom
    exact ih (hfrom.skip rfl) (map_eq_error_iff.mp h)
  case case7 start c rest _ _ _ _ =>
    cases h
    exact ⟨rest ++ after, hfrom⟩

theorem pointsInto_of_scanTemplate {offset : Nat} {cs : List Char} {e : SyntaxError}
    (hfrom : Text.From text offset cs) (h : scanTemplate offset cs = .error e) :
    e.PointsInto text := by
  fun_induction scanTemplate offset cs
  case case1 offset cs before rest _ hclose =>
    cases h
    obtain rfl := Text.breakPair_eq hclose
    exact ⟨rest, hfrom.skip rfl⟩
  case case2 => cases h
  case case3 offset cs before after _ early rest hearly =>
    cases h
    obtain rfl := Text.breakPair_eq (Option.filter_eq_some_iff.mp hearly).1
    exact ⟨rest, hfrom.skip rfl⟩
  case case4 offset cs before after hopen opening hclose _ =>
    cases h
    obtain rfl := Text.breakPair_eq hopen
    exact ⟨after, hfrom.skip rfl, Text.breakPair_eq_none_iff.mp hclose⟩
  case case5 offset cs before after hopen opening inner rest hclose start clean late hnested _ =>
    cases h
    obtain rfl := Text.breakPair_eq hopen
    obtain ⟨rfl, hfirst⟩ := Text.breakPair_eq_some_iff.mp hclose
    obtain rfl := Text.breakPair_eq hnested
    rw [List.append_assoc, List.cons_append, List.cons_append] at hfrom
    have hopening : Text.From text opening _ := hfrom.skip rfl
    have hclean : ¬ ['}', '}'] <:+: clean :=
      fun hpair => hfirst (hpair.trans ⟨[], '{' :: '{' :: (late ++ ['}']), by simp⟩)
    exact ⟨opening, clean, late ++ '}' :: '}' :: rest, hclean, hopening,
      hopening.next.next.skip rfl⟩
  case case6 offset cs before after hopen opening inner rest hclose _ hblank _ =>
    cases h
    obtain rfl := Text.breakPair_eq hopen
    obtain rfl := Text.breakPair_eq hclose
    exact ⟨inner, rest, hblank, hfrom.skip rfl⟩
  case case7 offset cs before after hopen opening inner rest hclose start _ _ _ ih =>
    obtain rfl := Text.breakPair_eq hopen
    obtain rfl := Text.breakPair_eq hclose
    obtain ⟨-, hinner, -, hrest⟩ := from_region hfrom rfl rfl
    rcases bind_eq_error_iff.mp h with hregion | ⟨region, -, h⟩
    · exact pointsInto_of_scan hinner hregion
    · rcases bind_eq_error_iff.mp h with hmore | ⟨more, -, h⟩
      · exact ih hrest hmore
      · cases h

end Token

namespace TokenStream

open Token

/-- The tokens divide the text of a template without loss. -/
structure Segments (text : String) (tokens : List Located) : Prop where
  ascending : (tokens.map Located.offset).Pairwise (· < ·)
  inside : ∀ t ∈ tokens, ∃ c rest, Text.From text t.offset (c :: rest)
  opening : ∀ offset, ⟨.openRegion, offset⟩ ∈ tokens →
    ∃ rest, Text.From text offset ('{' :: '{' :: rest)
  closing : ∀ offset, ⟨.closeRegion, offset⟩ ∈ tokens →
    ∃ rest, Text.From text offset ('}' :: '}' :: rest)
  /-- A literal holds the text up to the next region or the end, and no delimiter. -/
  literal : ∀ s offset after, ⟨.literal s, offset⟩ :: after <:+ tokens →
    s = Text.between text offset (nextOpening text after) ∧ Expr.PairFree s.toList
  separate : ∀ s s' offset offset' after,
    ¬ ⟨.literal s, offset⟩ :: ⟨.literal s', offset'⟩ :: after <:+ tokens
  lossless : String.join (stretches text none tokens) = text

/-- A text that scans as a template is divided into literals and regions without loss;
one that does not has the fault at the offset of the error. -/
theorem template_is_segmented (text : String) :
    match ofTemplate text with
    | .ok stream => stream.mode = .template ∧ Segments text stream.tokens
    | .error e => e.PointsInto text := by
  unfold ofTemplate
  cases hscan : scanTemplate 0 text.toList with
  | error e => exact pointsInto_of_scanTemplate (Text.from_zero text) hscan
  | ok tokens =>
    have hsegmented := scanTemplate_eq_ok_iff.mp hscan
    have hwithin := within_segmented hsegmented (Text.from_zero text)
    refine ⟨rfl, hwithin.ascending, fun t ht => (hwithin.stands t ht).from_char,
      fun offset => hwithin.stands _, fun offset => hwithin.stands _, ?_, ?_, ?_⟩
    · intro s offset after hsuffix
      obtain ⟨hfree, hslice, -⟩ := literal_of_segmented hsegmented (Text.from_zero text) hsuffix
      exact ⟨hslice, hfree⟩
    · intro s s' offset offset' after hsuffix
      obtain ⟨-, -, hnext⟩ := literal_of_segmented hsegmented (Text.from_zero text) hsuffix
      cases hnext _ rfl
    · rw [join_stretches_of_segmented hsegmented (Text.from_zero text), String.ofList_toList]

end TokenStream

end PlaybookRunner
