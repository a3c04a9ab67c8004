import PlaybookRunner.Proofs.LoneRegions
import PlaybookRunner.Proofs.MentionedNames

/-!
# Templates in a row

A template is made up of literals and of regions, whose texts compile on their own. A
template that is continued keeps its regions, and where the two meet only a literal may
grow. Its text is that of its parts in a row, also where a single part stands for itself.
So two templates in a row have their two texts in a row, unless a delimiter is formed
where they meet.
-/

namespace PlaybookRunner

namespace Expr

variable {es fs : List Expr}

/-- The parts that literal text is read as; no text is no part. -/
def literalParts (cs : List Char) : List Expr :=
  if cs.isEmpty then [] else [string (String.ofList cs)]

/-- The parts of a template: literals, and the expressions that the texts of its regions
compile to. -/
inductive Composed : List Char → List Expr → Prop
  | plain {cs : List Char} (h : PairFree cs) : Composed cs (literalParts cs)
  | region {before inner rest : List Char} {e : Expr} {es : List Expr}
      (h : Token.Delimits before inner) (hinner : compile (String.ofList inner) = .ok e)
      (hrest : Composed rest es) :
      Composed (before ++ '{' :: '{' :: (inner ++ '}' :: '}' :: rest))
        (literalParts before ++ e :: es)

theorem compile_eq_ok_iff {text : String} (h : PairFree text.toList) {e : Expr} :
    compile text = .ok e ↔
      ∃ located, Token.scan 0 text.toList = .ok located ∧ ofTokens located = .ok e := by
  rw [compile_of_pairFree h, TokenStream.ofExpression]
  cases Token.scan 0 text.toList with
  | error cause => simp [Except.map, ofScan]
  | ok located => simp [Except.map, ofScan_ok, ofStream, mapError_eq_ok_iff]

theorem compile_inner_eq_ok_iff {before inner : List Char} (h : Token.Delimits before inner)
    {e : Expr} : compile (String.ofList inner) = .ok e ↔
      ∃ located, Token.scan 0 inner = .ok located ∧ ofTokens located = .ok e := by
  have hfree : PairFree (String.ofList inner).toList := by
    rw [String.toList_ofList]
    exact h.pairFree_inner
  rw [compile_eq_ok_iff hfree, String.toList_ofList]

theorem partsOfTokens_literal? (cs : List Char) (offset : Nat) (located : List Located) :
    partsOfTokens (Token.literal? cs offset ++ located) =
      (partsOfTokens located).map (literalParts cs ++ ·) := by
  cases cs with
  | nil =>
    change partsOfTokens located = _
    cases partsOfTokens located <;> rfl
  | cons c cs =>
    change partsOfTokens (_ :: located) = _
    rw [partsOfTokens]
    rfl

theorem partsOfTokens_plain (cs : List Char) (offset : Nat) :
    partsOfTokens (Token.literal? cs offset) = .ok (literalParts cs) := by
  rw [← List.append_nil (Token.literal? cs offset), partsOfTokens_literal?, partsOfTokens,
    Except.map, List.append_nil]

/-- The parts up to the end of a region: the literal before it and the expression in it,
which is read from where its text would stand alone. -/
theorem partsOfTokens_segment {before inner : List Char} (h : Token.Delimits before inner)
    {located : List Located} (hscan : Token.scan 0 inner = .ok located)
    (offset start opening closing : Nat) (more : List Located) :
    partsOfTokens (Token.literal? before offset ++ ⟨.openRegion, opening⟩ ::
        located.map (Located.shift start) ++ ⟨.closeRegion, closing⟩ :: more) =
      ((ofTokens located).mapError (ParseError.shift start)).bind fun e =>
        (partsOfTokens more).map fun es => literalParts before ++ e :: es := by
  rw [List.append_assoc, partsOfTokens_literal?, List.cons_append,
    partsOfTokens_region (Token.isInner_of_scan hscan) (Token.scan_ne_nil hscan h.inked)]
  cases ofTokens located <;> cases partsOfTokens more <;> rfl

theorem composed_of_segmented {offset : Nat} {cs : List Char} {located : List Located}
    (h : Token.Segmented offset cs located) (hparts : partsOfTokens located = .ok es) :
    Composed cs es := by
  induction h generalizing es with
  | plain h =>
    rw [partsOfTokens_plain] at hparts
    cases hparts
    exact .plain h
  | region h _ hregion _ _ ih =>
    obtain ⟨located, hscan, rfl⟩ := Token.scan_eq_ok_iff.mp hregion
    rw [partsOfTokens_segment h hscan] at hparts
    obtain ⟨e, hread, hrest⟩ := bind_eq_ok_iff.mp hparts
    obtain ⟨es, hmore, rfl⟩ := map_eq_ok_iff.mp hrest
    have hinner := (compile_inner_eq_ok_iff h).mpr ⟨located, hscan, mapError_eq_ok_iff.mp hread⟩
    exact .region h hinner (ih hmore)

theorem Composed.exists_segmented {cs : List Char} (h : Composed cs es) (offset : Nat) :
    ∃ located, Token.Segmented offset cs located ∧ partsOfTokens located = .ok es := by
  induction h generalizing offset with
  | plain h => exact ⟨_, .plain h, partsOfTokens_plain _ _⟩
  | region h hinner _ ih =>
    obtain ⟨located, hscan, hread⟩ := (compile_inner_eq_ok_iff h).mp hinner
    obtain ⟨more, hmore, hparts⟩ := ih _
    refine ⟨_, .region h rfl (Token.scan_eq_ok_iff.mpr ⟨located, hscan, rfl⟩) rfl hmore, ?_⟩
    rw [partsOfTokens_segment h hscan, hread, hparts]
    rfl

/-- The expression of a template with some parts: a single part may stand for itself. -/
def Assembles (e : Expr) (es : List Expr) : Prop := e = concat es ∨ es = [e]

theorem exists_assembled {located : List Located} (h : partsOfTokens located = .ok es) :
    ∃ e, ofTemplateTokens located = .ok e ∧ Assembles e es := by
  simp only [ofTemplateTokens, h, bind, Except.bind]
  split
  next part _ _ => exact ⟨part, rfl, .inr rfl⟩
  next => exact ⟨concat es, rfl, .inl rfl⟩

theorem compileTemplate_eq_ok_iff {text : String} {e : Expr} :
    compileTemplate text = .ok e ↔
      ∃ located, Token.Segmented 0 text.toList located ∧ ofTemplateTokens located = .ok e := by
  simp only [← Token.scanTemplate_eq_ok_iff]
  rw [compileTemplate, TokenStream.ofTemplate]
  cases Token.scanTemplate 0 text.toList with
  | error cause => simp [Except.map, ofScan]
  | ok located => simp [Except.map, ofScan_ok, ofStream, mapError_eq_ok_iff]

theorem exists_composed {text : String} {e : Expr} (h : compileTemplate text = .ok e) :
    ∃ es, Composed text.toList es ∧ Assembles e es := by
  obtain ⟨located, hsegmented, hread⟩ := compileTemplate_eq_ok_iff.mp h
  obtain ⟨es, hparts, -⟩ := bind_eq_ok_iff.mp hread
  obtain ⟨e', hread', he'⟩ := exists_assembled hparts
  cases hread.symm.trans hread'
  exact ⟨es, composed_of_segmented hsegmented hparts, he'⟩

theorem Composed.exists_compiled {text : String} (h : Composed text.toList es) :
    ∃ e, compileTemplate text = .ok e ∧ Assembles e es := by
  obtain ⟨located, hsegmented, hparts⟩ := h.exists_segmented 0
  obtain ⟨e, hread, he⟩ := exists_assembled hparts
  exact ⟨e, compileTemplate_eq_ok_iff.mpr ⟨located, hsegmented, hread⟩, he⟩

/-- No delimiter of regions is formed where two texts meet. -/
def Seamless (a b : List Char) : Prop :=
  ∀ c, c = '{' ∨ c = '}' → ¬ (a.getLast? = some c ∧ b.head? = some c)

section

variable {a b : List Char} (h : Seamless a b)

include h

theorem Seamless.of_suffix {a' : List Char} (ha : a' <:+ a) : Seamless a' b := by
  obtain ⟨more, rfl⟩ := ha
  rintro c hc ⟨hlast, hhead⟩
  exact h c hc ⟨by simp [List.getLast?_append, hlast], hhead⟩

theorem Seamless.of_prefix {b' : List Char} (hb : b' <+: b) : Seamless a b' := by
  obtain ⟨more, rfl⟩ := hb
  rintro c hc ⟨hlast, hhead⟩
  exact h c hc ⟨hlast, by simp [List.head?_append, hhead]⟩

theorem Seamless.pairFree_append (ha : PairFree a) (hb : PairFree b) : PairFree (a ++ b) :=
  ⟨no_pair_append ha.1 hb.1 (h _ (.inl rfl)), no_pair_append ha.2 hb.2 (h _ (.inr rfl))⟩

end

theorem delimits_append {a before inner : List Char} (ha : PairFree a)
    (h : Token.Delimits before inner) (hseam : Seamless a (before ++ ['{'])) :
    Token.Delimits (a ++ before) inner where
  opens := by
    rw [List.append_assoc]
    exact no_pair_append ha.1 h.opens (hseam _ (.inl rfl))
  unclosed := no_pair_append ha.2 h.unclosed (hseam.of_prefix ⟨_, rfl⟩ _ (.inr rfl))
  closes := h.closes
  flat := h.flat
  inked := h.inked

section

variable {m : Type → Type} [Monad m]

/-- The texts of some parts, joined. -/
def rendered (look : String → m (Option Value)) (es : List Expr) : ExceptT EvalError m String := do
  return String.join ((← runAll (evalEach look es)).map Value.display)

variable (look : String → m (Option Value))

theorem evalEach_append (es fs : List Expr) :
    evalEach look (es ++ fs) = evalEach look es ++ evalEach look fs := by
  induction es with
  | nil => rfl
  | cons e es ih => exact congrArg (eval look e :: ·) ih

variable [LawfulMonad m]

theorem runAll_append (xs ys : List (ExceptT EvalError m Value)) :
    runAll (xs ++ ys) = do
      let vs ← runAll xs
      let ws ← runAll ys
      return vs ++ ws := by
  induction xs with
  | nil => simp [runAll]
  | cons x xs ih => simp [runAll, ih]

theorem rendered_append (es fs : List Expr) :
    rendered look (es ++ fs) = do
      let s ← rendered look es
      let t ← rendered look fs
      return s ++ t := by
  simp [rendered, evalEach_append, runAll_append]

theorem rendered_append_congr {gs : List Expr} (h : rendered look fs = rendered look gs)
    (es : List Expr) : rendered look (es ++ fs) = rendered look (es ++ gs) := by
  rw [rendered_append, rendered_append, h]

theorem rendered_literalParts (cs : List Char) :
    rendered look (literalParts cs) = pure (String.ofList cs) := by
  cases cs with
  | nil => simp [rendered, literalParts, evalEach, runAll]
  | cons c cs => simp [rendered, literalParts, evalEach, eval, runAll, Value.display]

theorem rendered_literalParts_append (cs cs' : List Char) :
    rendered look (literalParts (cs ++ cs')) =
      rendered look (literalParts cs ++ literalParts cs') := by
  rw [rendered_append]
  simp only [rendered_literalParts, String.ofList_append, pure_bind]

variable {a b : List Char}

/-- Literal text before a template goes into its first literal, if there is one. -/
theorem Composed.prepend (hb : Composed b fs) (ha : PairFree a) (hseam : Seamless a b) :
    ∃ gs, Composed (a ++ b) gs ∧ rendered look gs = rendered look (literalParts a ++ fs) := by
  cases hb with
  | plain h => exact ⟨_, .plain (hseam.pairFree_append ha h), rendered_literalParts_append look _ _⟩
  | @region before inner rest e es h hinner hrest =>
    have hdelims : Token.Delimits (a ++ before) inner :=
      delimits_append ha h (hseam.of_prefix ⟨'{' :: (inner ++ '}' :: '}' :: rest), by simp⟩)
    refine ⟨literalParts (a ++ before) ++ e :: es, ?_, ?_⟩
    · rw [← List.append_assoc]
      exact .region hdelims hinner hrest
    · rw [rendered_append, rendered_literalParts_append, ← rendered_append, List.append_assoc]

/-- The parts of a template and of one that continues it: the induction is on the first,
whose text after the last region meets the second. -/
theorem Composed.append (ha : Composed a es) (hb : Composed b fs) (hseam : Seamless a b) :
    ∃ gs, Composed (a ++ b) gs ∧ rendered look gs = rendered look (es ++ fs) := by
  induction ha with
  | plain h => exact hb.prepend look h hseam
  | @region before inner rest e es h hinner _ ih =>
    have hsuffix : rest <:+ before ++ '{' :: '{' :: (inner ++ '}' :: '}' :: rest) :=
      ⟨before ++ '{' :: '{' :: (inner ++ ['}', '}']), by simp⟩
    obtain ⟨gs, hgs, hrendered⟩ := ih (hseam.of_suffix hsuffix)
    refine ⟨literalParts before ++ e :: gs, ?_, ?_⟩
    · simpa using Composed.region h hinner hgs
    · simpa using rendered_append_congr look hrendered (literalParts before ++ [e])

variable {look}

theorem Assembles.display_eval {e : Expr} (h : Assembles e es) :
    Value.display <$> eval look e = rendered look es := by
  rcases h with rfl | rfl
  · simp [eval, rendered, Value.display]
  · simp [rendered, evalEach, runAll]

theorem expandTemplate_of_compiled {text : String} {e : Expr} (h : compileTemplate text = .ok e)
    (he : Assembles e es) :
    expandTemplate look text = Except.mapError ExprError.eval <$> (rendered look es).run := by
  rw [← he.display_eval, ExceptT.run_map, expandTemplate, evalTemplate, h, run]
  simp only [map_eq_pure_bind, bind_assoc, pure_bind]
  refine bind_congr fun outcome => ?_
  cases outcome <;> simp [Except.map, Except.mapError]

end

section

variable {σ : Type} {host : Host σ} {w : World σ} {scope : Scope} (hw : w.SettledIn scope)

include hw

theorem run_expandTemplate_of_settled (host : Host σ) (text : String) :
    ((expandTemplate (scope.read host) text).run w).2 = w := by
  have hread : ∀ key ∈ compiledNames (compileTemplate text),
      Related (fun v v' => v = w ∧ v' = w) (scope.read host key) (scope.read host key) := by
    rintro key - _ _ ⟨rfl, rfl⟩
    rw [(hw key).run_read]
    exact ⟨rfl, rfl, rfl⟩
  exact (related_expandTemplate text hread w w ⟨rfl, rfl⟩).2.1

theorem exists_rendered {text s : String}
    (h : ((expandTemplate (scope.read host) text).run w).1 = .ok s) :
    ∃ es, Composed text.toList es ∧ (rendered (scope.read host) es).run.run w = (.ok s, w) := by
  have hstate := run_expandTemplate_of_settled hw host text
  cases hcompile : compileTemplate text with
  | error e =>
    rw [expandTemplate, evalTemplate, hcompile] at h
    cases h
  | ok e =>
    obtain ⟨es, hes, he⟩ := exists_composed hcompile
    rw [expandTemplate_of_compiled hcompile he] at h hstate
    exact ⟨es, hes, Prod.ext (mapError_eq_ok_iff.mp h) hstate⟩

/-- Where futures have settled, two templates in a row have their texts in a row, unless a
delimiter is formed where they meet. -/
theorem expandTemplate_append {a b s t : String}
    (ha : ((expandTemplate (scope.read host) a).run w).1 = .ok s)
    (hb : ((expandTemplate (scope.read host) b).run w).1 = .ok t)
    (hseam : Seamless a.toList b.toList) :
    (expandTemplate (scope.read host) (a ++ b)).run w = (.ok (s ++ t), w) := by
  obtain ⟨es, hes, hs⟩ := exists_rendered hw ha
  obtain ⟨fs, hfs, ht⟩ := exists_rendered hw hb
  obtain ⟨gs, hgs, hrendered⟩ := hes.append (scope.read host) hfs hseam
  rw [← String.toList_append] at hgs
  obtain ⟨e, hcompile, he⟩ := hgs.exists_compiled
  have hjoined : (rendered (scope.read host) (es ++ fs)).run.run w = (.ok (s ++ t), w) := by
    rw [rendered_append, run_bind_of_ok hs, run_bind_of_ok ht]
    rfl
  rw [expandTemplate_of_compiled hcompile he, hrendered, StateT.run_map, hjoined]
  rfl

end

theorem expandTemplate_append_collapsed :
    harvested.SettledIn [.table 0] ∧
      ((expandTemplate (Scope.read World.bareHost [.table 0]) "\x7b\x7bc.n\x7d\x7d").run
        harvested).1 = .ok "3" ∧
      ((expandTemplate (Scope.read World.bareHost [.table 0]) "\x7b \x7b\x7bon\x7d\x7d").run
        harvested).1 = .ok "\x7b true" ∧
      Seamless "\x7b\x7bc.n\x7d\x7d".toList "\x7b \x7b\x7bon\x7d\x7d".toList ∧
      (expandTemplate (Scope.read World.bareHost [.table 0])
        "\x7b\x7bc.n\x7d\x7d\x7b \x7b\x7bon\x7d\x7d").run harvested =
          (.ok "3\x7b true", harvested) := by
  have ha : ((expandTemplate (Scope.read World.bareHost [.table 0]) "\x7b\x7bc.n\x7d\x7d").run
      harvested).1 = .ok "3" := by
    cbv
  have hb : ((expandTemplate (Scope.read World.bareHost [.table 0])
      "\x7b \x7b\x7bon\x7d\x7d").run harvested).1 = .ok "\x7b true" := by
    cbv
  have hseam : Seamless "\x7b\x7bc.n\x7d\x7d".toList "\x7b \x7b\x7bon\x7d\x7d".toList := by
    unfold Seamless
    simp
  have htext : "\x7b\x7bc.n\x7d\x7d" ++ "\x7b \x7b\x7bon\x7d\x7d" =
      "\x7b\x7bc.n\x7d\x7d\x7b \x7b\x7bon\x7d\x7d" := by
    decide
  have happend := expandTemplate_append settled_harvested ha hb hseam
  rw [htext] at happend
  exact ⟨settled_harvested, ha, hb, hseam, happend⟩

end Expr

end PlaybookRunner
