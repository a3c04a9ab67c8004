import Mathlib
import PlaybookRunner.Proofs.Confluence
import PlaybookRunner.Proofs.TemplateSegments

/-!
# Regions that stand alone

A template that is one region has the value of the expression in it. Scanning and
reading do not depend on where a text stands, up to the offsets in tokens and errors. The
end of a region stops reading like the end of a text does, at whatever point of an
expression it comes.
-/

namespace PlaybookRunner

/-- The token further on in a text. -/
def Located.shift (n : Nat) (t : Located) : Located := { t with offset := t.offset + n }

/-- The error further on in a text. -/
def SyntaxError.shift (n : Nat) : SyntaxError → SyntaxError
  | unterminated offset => unterminated (offset + n)
  | unbalanced offset => unbalanced (offset + n)
  | nested offset => nested (offset + n)
  | empty offset => empty (offset + n)
  | unterminatedString offset => unterminatedString (offset + n)
  | unexpectedChar char offset => unexpectedChar char (offset + n)

/-- The error further on in a text; that of a text without tokens has no offset. -/
def ParseError.shift (n : Nat) : ParseError → ParseError
  | unexpectedToken token offset => unexpectedToken token (offset + n)
  | unmatched bracket offset => unmatched bracket (offset + n)
  | trailing token offset => trailing token (offset + n)
  | emptyApplication offset => emptyApplication (offset + n)
  | emptyInput => emptyInput

/-- The error further on in a text; evaluation does not know of offsets. -/
def ExprError.shift (n : Nat) : ExprError → ExprError
  | syntaxError cause => syntaxError (cause.shift n)
  | parse cause => parse (cause.shift n)
  | eval cause => eval cause

namespace Token

/-- What scanning answers for the same text further on. -/
def shiftScan (n : Nat) (scanned : Except SyntaxError (List Located)) :
    Except SyntaxError (List Located) :=
  (scanned.map (List.map (Located.shift n))).mapError (SyntaxError.shift n)

theorem shiftScan_map_cons (n : Nat) (t : Located) (scanned : Except SyntaxError (List Located)) :
    shiftScan n (scanned.map (t :: ·)) = (shiftScan n scanned).map (t.shift n :: ·) := by
  cases scanned <;> rfl

theorem scan_shift (n offset : Nat) (cs : List Char) :
    scan (offset + n) cs = shiftScan n (scan offset cs) := by
  fun_induction scan offset cs
  case case1 =>
    rw [scan]
    rfl
  case case2 offset c rest token hbracket ih =>
    rw [shiftScan_map_cons, ← ih, scan, hbracket, Nat.add_right_comm]
    rfl
  case case3 offset c rest hbracket hblank ih =>
    rw [← ih, scan, hbracket, Nat.add_right_comm]
    exact if_pos hblank
  case case4 offset c rest hbracket hblank hquote hstring =>
    rw [scan, hbracket]
    dsimp only
    rw [if_neg hblank, if_pos hquote]
    split
    next => rfl
    next hsome => cases hstring.symm.trans hsome
  case case5 offset c rest hbracket hblank hquote chars raw last hstring ih =>
    rw [shiftScan_map_cons, ← ih, scan, hbracket]
    dsimp only
    rw [if_neg hblank, if_pos hquote]
    split
    next hnone => cases hstring.symm.trans hnone
    next hsome =>
      cases hstring.symm.trans hsome
      rw [Nat.add_right_comm offset, Nat.add_right_comm _ n]
      rfl
  case case6 offset c rest hbracket hblank hquote hword word ih =>
    rw [shiftScan_map_cons, ← ih, scan, hbracket, Nat.add_right_comm offset _ n]
    dsimp only
    rw [if_neg hblank, if_neg hquote, if_pos hword]
    rfl
  case case7 offset c rest hbracket hblank hquote hword =>
    rw [scan, hbracket]
    dsimp only
    rw [if_neg hblank, if_neg hquote, if_neg hword]
    rfl

/-- The tokens of a text are those of the text at the start, further on. -/
theorem scan_eq_ok_iff {offset : Nat} {cs : List Char} {region : List Located} :
    scan offset cs = .ok region ↔
      ∃ located, scan 0 cs = .ok located ∧ region = located.map (Located.shift offset) := by
  have hshift := scan_shift offset 0 cs
  rw [Nat.zero_add] at hshift
  rw [hshift]
  cases scan 0 cs with
  | error e => simp [shiftScan, Except.map, Except.mapError]
  | ok located => simp [shiftScan, Except.map, Except.mapError, eq_comm]

theorem scan_ne_nil {offset : Nat} {cs : List Char} {located : List Located}
    (h : scan offset cs = .ok located) (hink : Text.allBlank cs = false) : located ≠ [] := by
  fun_induction scan offset cs generalizing located
  case case1 => cases hink
  case case3 hblank ih =>
    refine ih h ?_
    simpa [Text.allBlank, hblank] using hink
  case case4 | case7 => cases h
  all_goals
    obtain ⟨more, -, rfl⟩ := map_eq_ok_iff.mp h
    exact List.cons_ne_nil _ _

theorem scanTemplate_alone {inner : List Char} (h : Delimits [] inner) :
    scanTemplate 0 ('{' :: '{' :: (inner ++ ['}', '}'])) =
      (shiftScan 2 (scan 0 inner)).map fun region =>
        ⟨.openRegion, 0⟩ :: (region ++ [⟨.closeRegion, 2 + Text.byteSize inner⟩]) := by
  have hempty (offset : Nat) : scanTemplate offset [] = .ok [] :=
    scanTemplate_plain (by simp [Expr.PairFree]) offset
  have hopening : 0 + Text.byteSize [] = 0 := rfl
  have hscan := scanTemplate_region h 0 []
  dsimp only at hscan
  rw [hempty, hopening, scan_shift] at hscan
  refine hscan.trans ?_
  cases scan 0 inner <;> rfl

theorem isInner_of_scan {cs : List Char} {located : List Located} (h : scan 0 cs = .ok located) :
    ∀ t ∈ located, t.token.IsInner := by
  have hfrom : Text.From (String.ofList cs) 0 (cs ++ []) :=
    ⟨[], by rw [String.toList_ofList, List.append_nil, List.nil_append], rfl⟩
  exact (within_scan hfrom h).2

end Token

namespace Expr

/-- An open bracket further on in a text. -/
def Frame.shift (n : Nat) : Frame → Frame
  | list offset items => list (offset + n) items
  | call offset op args => call (offset + n) op args

@[simp] theorem Frame.shift_push (n : Nat) (e : Expr) (frame : Frame) :
    (frame.push e).shift n = (frame.shift n).push e := by
  cases frame <;> rfl

theorem Frame.unclosed_shift (n : Nat) (frame : Frame) :
    (frame.shift n).unclosed = frame.unclosed.shift n := by
  cases frame <;> rfl

/-- What is answered for tokens that stand further on, before other tokens. -/
def displaced (n : Nat) (after : List Located) (answer : Except ParseError (Expr × List Located)) :
    Except ParseError (Expr × List Located) :=
  (answer.map fun (e, rest) => (e, rest.map (Located.shift n) ++ after)).mapError
    (ParseError.shift n)

section

variable {n : Nat} {after : List Located}

@[simp] theorem displaced_error (e : ParseError) :
    displaced n after (.error e) = .error (e.shift n) := rfl

theorem displaced_resume (stack : List Frame) {e : Expr} {rest : List Located}
    (h : ∀ (frame : Frame) (frames : List Frame),
      read ((frame.push e :: frames).map (Frame.shift n)) (rest.map (Located.shift n) ++ after) =
        displaced n after (read (frame.push e :: frames) rest)) :
    resume (stack.map (Frame.shift n)) e (rest.map (Located.shift n) ++ after) =
      displaced n after (resume stack e rest) := by
  cases stack with
  | nil => rfl
  | cons frame frames =>
    rw [resume, ← h, List.map_cons, List.map_cons, Frame.shift_push]
    rfl

/-- The end of a region stops reading like the end of the text, except that nothing at all
is an error of its own. -/
theorem read_before_closeRegion (stack : List Frame) {tokens : List Located}
    (hsome : stack ≠ [] ∨ tokens ≠ []) {closing : Nat} {more : List Located}
    (hafter : after = ⟨.closeRegion, closing⟩ :: more) :
    read (stack.map (Frame.shift n)) (tokens.map (Located.shift n) ++ after) =
      displaced n after (read stack tokens) := by
  have hne {frame : Frame} {frames : List Frame} {rest : List Located} :
      frame :: frames ≠ [] ∨ rest ≠ [] := .inl (List.cons_ne_nil frame frames)
  fun_induction read stack tokens
  case case1 => exact hsome.elim (absurd rfl) (absurd rfl)
  case case2 frame _ =>
    subst hafter
    exact congrArg Except.error (frame.unclosed_shift n)
  -- An atom: reading goes on with it, or ends, on both sides alike.
  case case3 stack _ _ _ _ ih | case4 stack _ _ _ _ ih | case5 stack _ _ _ _ ih |
      case6 stack _ _ _ _ ih =>
    have hresume (e : Expr) := displaced_resume stack fun f fs => ih e f fs hne
    cases stack <;> exact hresume _
  case case7 stack _ _ _ ih => cases stack <;> exact ih hne
  case case8 stack _ _ _ _ _ ih => cases stack <;> exact ih hne
  case case9 stack _ _ _ _ | case11 stack _ _ _ _ => cases stack <;> rfl
  case case10 stack _ _ =>
    subst hafter
    cases stack <;> rfl
  case case12 stack _ _ _ _ _ _ _ _ =>
    cases stack <;> simp [read, Located.shift, ParseError.shift]
  -- Closing brackets: one that fits ends an item or the expression, any other is an error.
  case case13 | case16 => rfl
  case case14 frame frames ih _ | case17 frame frames ih _ =>
    exact displaced_resume (frame :: frames) fun f fs => ih _ f fs hne
  case case15 stack _ _ hone hmore _ =>
    rcases stack with _ | ⟨_ | _, _ | _⟩
    case cons.list.nil => exact (hone _ _ rfl).elim
    case cons.list.cons => exact (hmore _ _ _ _ rfl).elim
    all_goals rfl
  case case18 stack _ _ hone hmore _ =>
    rcases stack with _ | ⟨_ | _, _ | _⟩
    case cons.call.nil => exact (hone _ _ _ rfl).elim
    case cons.call.cons => exact (hmore _ _ _ _ _ rfl).elim
    all_goals rfl
  case case19 => rfl
  case case20 frame _ _ => exact congrArg Except.error (frame.unclosed_shift n)
  case case21 stack _ _ _ _ _ _ _ _ _ _ _ _ _ =>
    cases stack <;> simp [read, Located.shift, ParseError.shift]

end

theorem partsOfTokens_openRegion (opening : Nat) (rest : List Located) :
    partsOfTokens (⟨.openRegion, opening⟩ :: rest) =
      match read [] rest with
      | .error e => .error e
      | .ok (_, []) => .error (.unmatched '{' opening)
      | .ok (e, ⟨.closeRegion, _⟩ :: after) => (partsOfTokens after).map (e :: ·)
      | .ok (_, ⟨extra, at_⟩ :: _) => .error (.trailing extra at_) := by
  rw [partsOfTokens]
  split
  next h => rw [h]
  next h => rw [h]
  next h => rw [h]
  next extra at_ tail hclose h =>
    rw [h]
    cases extra with
    | closeRegion => exact absurd rfl hclose
    | _ => rfl

/-- The parts that start with a region: its text is read as if it stood alone. -/
theorem partsOfTokens_region {located : List Located} (hinner : ∀ t ∈ located, t.token.IsInner)
    (hsome : located ≠ []) (n opening closing : Nat) (more : List Located) :
    partsOfTokens (⟨.openRegion, opening⟩ ::
        (located.map (Located.shift n) ++ ⟨.closeRegion, closing⟩ :: more)) =
      ((ofTokens located).mapError (ParseError.shift n)).bind fun e =>
        (partsOfTokens more).map (e :: ·) := by
  have hread : read [] (located.map (Located.shift n) ++ ⟨.closeRegion, closing⟩ :: more) = _ :=
    read_before_closeRegion [] (.inr hsome) rfl
  rw [partsOfTokens_openRegion, ofTokens, hread]
  cases hanswer : read [] located with
  | error e => rfl
  | ok answer =>
    obtain ⟨e, rest⟩ := answer
    cases rest with
    | nil => rfl
    | cons t rest =>
      obtain ⟨-, htokens⟩ := accounts_of_read hanswer (by simp)
      have hmem : t.token ∈ located.map Located.token := by
        change [] ++ _ = _ at htokens
        rw [List.nil_append] at htokens
        simp [htokens]
      obtain ⟨u, hu, htoken⟩ := List.mem_map.mp hmem
      have ht := hinner u hu
      rw [htoken] at ht
      obtain ⟨token, offset⟩ := t
      cases token with
      | closeRegion => exact ht.elim
      | _ => rfl

/-- A lone region is read like the expression in it. -/
theorem ofTemplateTokens_region {located : List Located} (hinner : ∀ t ∈ located, t.token.IsInner)
    (hsome : located ≠ []) (n opening closing : Nat) :
    ofTemplateTokens (⟨.openRegion, opening⟩ ::
        (located.map (Located.shift n) ++ [⟨.closeRegion, closing⟩])) =
      (ofTokens located).mapError (ParseError.shift n) := by
  rw [ofTemplateTokens, partsOfTokens_region hinner hsome, partsOfTokens]
  cases ofTokens located <;> rfl

theorem no_pair_append {c : Char} {a b : List Char} (ha : ¬ [c, c] <:+: a) (hb : ¬ [c, c] <:+: b)
    (hseam : ¬ (a.getLast? = some c ∧ b.head? = some c)) : ¬ [c, c] <:+: a ++ b := by
  rw [← isChain_iff_no_pair] at ha hb ⊢
  rw [List.isChain_append]
  refine ⟨ha, hb, ?_⟩
  rintro x hx y hy ⟨rfl, rfl⟩
  exact hseam ⟨hx, hy⟩

theorem compile_of_pairFree {text : String} (h : PairFree text.toList) :
    compile text = ofScan (TokenStream.ofExpression text) := by
  have htemplate : TokenStream.isTemplate text.toList = false := by
    simp [TokenStream.isTemplate, Text.breakPair_eq_none h.1, Text.breakPair_eq_none h.2]
  rw [compile, TokenStream.ofText, htemplate]
  rfl

theorem ofScan_ok (stream : TokenStream) :
    ofScan (.ok stream) = (ofStream stream).mapError ExprError.parse := by
  rw [ofScan]
  cases ofStream stream <;> rfl

theorem compileTemplate_alone {text : String} (h : Token.Delimits [] text.toList) :
    compileTemplate ("\x7b\x7b" ++ text ++ "\x7d\x7d") =
      (ofScan (TokenStream.ofExpression text)).mapError (ExprError.shift 2) := by
  have htext : ("\x7b\x7b" ++ text ++ "\x7d\x7d").toList =
      '{' :: '{' :: (text.toList ++ ['}', '}']) := by
    simp
  rw [compileTemplate, TokenStream.ofTemplate, htext, Token.scanTemplate_alone h,
    TokenStream.ofExpression]
  cases hscan : Token.scan 0 text.toList with
  | error e => rfl
  | ok located =>
    have hread := ofTemplateTokens_region (Token.isInner_of_scan hscan)
      (Token.scan_ne_nil hscan h.inked) 2 0 (2 + Text.byteSize text.toList)
    calc ofScan (.ok ⟨.template, ⟨.openRegion, 0⟩ :: (located.map (Located.shift 2) ++
          [⟨.closeRegion, 2 + Text.byteSize text.toList⟩])⟩)
      _ = ((ofTokens located).mapError (ParseError.shift 2)).mapError .parse := by
        rw [ofScan_ok, ofStream, hread]
      _ = (ofScan (.ok ⟨.expression, located⟩)).mapError (ExprError.shift 2) := by
        rw [ofScan_ok, ofStream]
        cases ofTokens located <;> rfl

section

variable {m : Type → Type} [Monad m] [LawfulMonad m]

theorem run_mapError (look : String → m (Option Value)) (n : Nat)
    (compiled : Except ExprError Expr) :
    run look (compiled.mapError (ExprError.shift n)) =
      Except.mapError (ExprError.shift n) <$> run look compiled := by
  cases compiled with
  | error e => simp [run, Except.mapError]
  | ok e =>
    simp only [Except.mapError, run, map_bind]
    refine bind_congr fun outcome => ?_
    cases outcome <;> simp [Except.mapError, ExprError.shift]

/-- A template that is one region has the outcome of the expression in the region,
whatever reading a variable does: the same value, or the same error with offsets that
count the opening delimiter too. -/
theorem region_alone_is_expression {text : String} (hink : Text.allBlank text.toList = false)
    (hpairs : PairFree text.toList) (hlast : text.toList.getLast? ≠ some '}')
    (look : String → m (Option Value)) :
    evalTemplate look ("\x7b\x7b" ++ text ++ "\x7d\x7d") =
      Except.mapError (ExprError.shift 2) <$> evalText look text := by
  have hcloses : ¬ ['}', '}'] <:+: text.toList ++ ['}'] :=
    no_pair_append hpairs.2 (by decide) fun hseam => hlast hseam.1
  have hdelims : Token.Delimits [] text.toList :=
    ⟨by decide, by simp, hcloses, hpairs.1, hink⟩
  rw [evalTemplate, evalText, compileTemplate_alone hdelims, compile_of_pairFree hpairs,
    run_mapError]

theorem region_alone_is_expression_truncated :
    Text.allBlank "[x \"é\" (len".toList = false ∧ PairFree "[x \"é\" (len".toList ∧
      "[x \"é\" (len".toList.getLast? ≠ some '}' ∧
      evalText (Scope.read World.bareHost [.fixed [("x", .int 3)]]) "[x \"é\" (len" =
        pure (.error (.parse (.unmatched '(' 8))) ∧
      evalTemplate (Scope.read World.bareHost [.fixed [("x", .int 3)]])
        "\x7b\x7b[x \"é\" (len\x7d\x7d" = pure (.error (.parse (.unmatched '(' 10))) := by
  have hink : Text.allBlank "[x \"é\" (len".toList = false := by decide
  have hpairs : PairFree "[x \"é\" (len".toList := by
    rw [PairFree, ← isChain_iff_no_pair, ← isChain_iff_no_pair]
    decide
  have hlast : "[x \"é\" (len".toList.getLast? ≠ some '}' := by decide
  have hscan : Token.scan 0 "[x \"é\" (len".toList = .ok [⟨.openBracket, 0⟩, ⟨.symbol "x", 1⟩,
      ⟨.string "é", 3⟩, ⟨.openParen, 8⟩, ⟨.symbol "len", 9⟩] := by
    cbv
  have htext : evalText (Scope.read World.bareHost [.fixed [("x", .int 3)]]) "[x \"é\" (len" =
      pure (.error (.parse (.unmatched '(' 8))) := by
    rw [evalText, compile_of_pairFree hpairs, TokenStream.ofExpression, hscan]
    rfl
  have halone := region_alone_is_expression hink hpairs hlast
    (Scope.read World.bareHost [.fixed [("x", .int 3)]])
  rw [htext] at halone
  exact ⟨hink, hpairs, hlast, htext, halone⟩

end

end Expr

end PlaybookRunner
