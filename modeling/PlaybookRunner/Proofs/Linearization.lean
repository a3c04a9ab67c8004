import Mathlib.Data.Set.Function
import PlaybookRunner.Expr.Tree

/-!
# Linearizations

The tokens of an expression in prefix notation. Reading accepts a list of tokens
exactly if it is the linearization of a plain expression, one without templates
in which no variable has the name of a constant, and answers that expression. A
template is read from a sequence of literals and regions.
-/

namespace PlaybookRunner.Expr

mutual

/-- The tokens of an expression; a template has none of its own. -/
def tokens : Expr → List Token
  | nil => [.symbol "nil"]
  | bool true => [.symbol "true"]
  | bool false => [.symbol "false"]
  | int n => [.int n]
  | float x => [.float x]
  | string s => [.string s]
  | symbol path => [.symbol path]
  | list items => .openBracket :: (tokensOfAll items ++ [.closeBracket])
  | call op args => .openParen :: .symbol op :: (tokensOfAll args ++ [.closeParen])
  | concat _ => []

/-- The tokens of expressions in a row. -/
def tokensOfAll : List Expr → List Token
  | [] => []
  | e :: rest => tokens e ++ tokensOfAll rest

end

/-- No part is a template, and no variable has the name of a constant. -/
inductive Plain : Expr → Prop
  | nil : Plain nil
  | bool (b : Bool) : Plain (bool b)
  | int (n : Int64) : Plain (int n)
  | float (x : Float) : Plain (float x)
  | string (s : String) : Plain (string s)
  | symbol {path : String} (hpath : path ∉ ["true", "false", "nil"]) : Plain (symbol path)
  | list {items : List Expr} (hitems : ∀ e ∈ items, Plain e) : Plain (list items)
  | call (op : String) {args : List Expr} (hargs : ∀ e ∈ args, Plain e) : Plain (call op args)

/-- A part of a template. -/
inductive Part
  | literal (text : String)
  | region (e : Expr)

namespace Part

/-- The expression of a part: a literal stands for its text. -/
def expr : Part → Expr
  | literal text => string text
  | region e => e

/-- The tokens of a part. -/
def tokens : Part → List Token
  | literal text => [.literal text]
  | region e => .openRegion :: (e.tokens ++ [.closeRegion])

/-- The part holds a plain expression, if any. -/
def Plain : Part → Prop
  | literal _ => True
  | region e => e.Plain

end Part

/-- The expression of a template: a region alone stands for itself. -/
def ofParts : List Part → Expr
  | [.region e] => e
  | parts => concat (parts.map Part.expr)

theorem tokensOfAll_eq (es : List Expr) : tokensOfAll es = es.flatMap tokens := by
  induction es with
  | nil => rfl
  | cons e es ih => rw [tokensOfAll, ih, List.flatMap_cons]

theorem tokens_ofSymbol (name : String) : (ofSymbol name).tokens = [.symbol name] := by
  unfold ofSymbol
  split_ifs with htrue hfalse hnil
  · rw [htrue, tokens]
  · rw [hfalse, tokens]
  · rw [hnil, tokens]
  · rw [tokens]

theorem plain_ofSymbol (name : String) : (ofSymbol name).Plain := by
  unfold ofSymbol
  split_ifs with htrue hfalse hnil
  · exact .bool true
  · exact .bool false
  · exact .nil
  · exact .symbol (by simp [htrue, hfalse, hnil])

theorem ofSymbol_of_notMem {path : String} (h : path ∉ ["true", "false", "nil"]) :
    ofSymbol path = symbol path := by
  simp only [List.mem_cons, List.not_mem_nil, or_false, not_or] at h
  simp [ofSymbol, h]

/-- Goes on after an expression has been read: it is the answer, or an item of
the innermost open bracket. -/
def resume (stack : List Frame) (e : Expr) (rest : List Located) :
    Except ParseError (Expr × List Located) :=
  match stack with
  | [] => .ok (e, rest)
  | frame :: frames => read (frame.push e :: frames) rest

namespace Frame

/-- The tokens of an open bracket up to where it has been read. -/
def tokens : Frame → List Token
  | list _ items => .openBracket :: tokensOfAll items.reverse
  | call _ op args => .openParen :: .symbol op :: tokensOfAll args.reverse

/-- The items read so far are plain. -/
def Plain : Frame → Prop
  | list _ items => ∀ e ∈ items, e.Plain
  | call _ _ args => ∀ e ∈ args, e.Plain

/-- The expression of a bracket that is closed here. -/
def closed : Frame → Expr
  | list _ items => .list items.reverse
  | call _ op args => .call op args.reverse

/-- The token that closes a bracket. -/
def closing : Frame → Token
  | list _ _ => .closeBracket
  | call _ _ _ => .closeParen

theorem tokens_push (e : Expr) (frame : Frame) :
    (frame.push e).tokens = frame.tokens ++ e.tokens := by
  cases frame <;> simp [push, tokens, tokensOfAll_eq]

theorem plain_push {e : Expr} {frame : Frame} (he : e.Plain) (hframe : frame.Plain) :
    (frame.push e).Plain := by
  cases frame <;> exact List.forall_mem_cons.mpr ⟨he, hframe⟩

theorem tokens_closed (frame : Frame) : frame.closed.tokens = frame.tokens ++ [frame.closing] := by
  cases frame <;> simp [closed, closing, tokens, Expr.tokens]

theorem plain_closed {frame : Frame} (h : frame.Plain) : frame.closed.Plain := by
  cases frame with
  | list offset items => exact .list fun e he => h e (List.mem_reverse.mp he)
  | call offset op args => exact .call op fun e he => h e (List.mem_reverse.mp he)

end Frame

/-- The tokens of the open brackets, outermost first. -/
def written : List Frame → List Token
  | [] => []
  | frame :: frames => written frames ++ frame.tokens

/-- Reading a stack and tokens to an answer neither drops a token nor adds one,
and the answer is plain. -/
def Accounts (stack : List Frame) (located : List Located) (e : Expr) (rest : List Located) :
    Prop :=
  e.Plain ∧ written stack ++ located.map Located.token = e.tokens ++ rest.map Located.token

section Soundness

variable {stack frames : List Frame} {frame : Frame} {e answer : Expr} {located rest : List Located}

/-- An expression that has been read adds its own tokens to those accounted for. -/
theorem accounts_resume (hstack : ∀ f ∈ stack, f.Plain) (he : e.Plain)
    (hread : ∀ (f : Frame) (fs : List Frame), read (f.push e :: fs) located = .ok (answer, rest) →
      (∀ g ∈ f.push e :: fs, g.Plain) → Accounts (f.push e :: fs) located answer rest)
    (h : resume stack e located = .ok (answer, rest)) :
    answer.Plain ∧ written stack ++ (e.tokens ++ located.map Located.token) =
      answer.tokens ++ rest.map Located.token := by
  cases stack with
  | nil =>
    cases h
    exact ⟨he, rfl⟩
  | cons frame frames =>
    obtain ⟨hframe, hframes⟩ := List.forall_mem_cons.mp hstack
    obtain ⟨hanswer, htokens⟩ := hread frame frames h
      (List.forall_mem_cons.mpr ⟨Frame.plain_push he hframe, hframes⟩)
    refine ⟨hanswer, ?_⟩
    rw [← htokens, written, written, Frame.tokens_push]
    simp only [List.append_assoc]

/-- The closing token of a bracket completes the tokens of its expression. -/
theorem accounts_close (hstack : ∀ f ∈ frame :: frames, f.Plain)
    (hread : ∀ (f : Frame) (fs : List Frame),
      read (f.push frame.closed :: fs) located = .ok (answer, rest) →
      (∀ g ∈ f.push frame.closed :: fs, g.Plain) →
      Accounts (f.push frame.closed :: fs) located answer rest)
    (h : resume frames frame.closed located = .ok (answer, rest)) :
    answer.Plain ∧ written (frame :: frames) ++ (frame.closing :: located.map Located.token) =
      answer.tokens ++ rest.map Located.token := by
  obtain ⟨hframe, hframes⟩ := List.forall_mem_cons.mp hstack
  obtain ⟨hanswer, htokens⟩ := accounts_resume hframes (Frame.plain_closed hframe) hread h
  refine ⟨hanswer, ?_⟩
  rw [← htokens, Frame.tokens_closed, written]
  simp only [List.append_assoc, List.singleton_append]

/-- What is read is the linearization of the answer, from the first open bracket on. -/
theorem accounts_of_read (h : read stack located = .ok (answer, rest))
    (hstack : ∀ f ∈ stack, f.Plain) : Accounts stack located answer rest := by
  fun_induction read stack located generalizing answer rest
  -- Reading goes on after an atom, an opening bracket, and a closing one that fits.
  case case3 n ih => exact accounts_resume hstack (.int n) (fun f fs => ih _ f fs) h
  case case4 x ih => exact accounts_resume hstack (.float x) (fun f fs => ih _ f fs) h
  case case5 s ih => exact accounts_resume hstack (.string s) (fun f fs => ih _ f fs) h
  case case6 name ih =>
    have hread := accounts_resume hstack (plain_ofSymbol name) (fun f fs => ih _ f fs) h
    rwa [tokens_ofSymbol] at hread
  case case7 ih =>
    obtain ⟨hanswer, htokens⟩ := ih h (List.forall_mem_cons.mpr ⟨by simp [Frame.Plain], hstack⟩)
    refine ⟨hanswer, ?_⟩
    rw [← htokens]
    simp [written, Frame.tokens, tokensOfAll]
  case case8 ih =>
    obtain ⟨hanswer, htokens⟩ := ih h (List.forall_mem_cons.mpr ⟨by simp [Frame.Plain], hstack⟩)
    refine ⟨hanswer, ?_⟩
    rw [← htokens]
    simp [written, Frame.tokens, tokensOfAll]
  case case13 ih => exact accounts_close hstack (fun f fs => ih _ f fs) h
  case case14 ih _ => exact accounts_close hstack (fun f fs => ih _ f fs) h
  case case16 ih => exact accounts_close hstack (fun f fs => ih _ f fs) h
  case case17 ih _ => exact accounts_close hstack (fun f fs => ih _ f fs) h
  all_goals cases h

end Soundness

section Completeness

variable {located rest : List Located} {items : List Expr}

theorem foldl_push_list (o : Nat) (acc items : List Expr) :
    items.foldl (fun f e => f.push e) (Frame.list o acc) = .list o (items.reverse ++ acc) := by
  induction items generalizing acc with
  | nil => rfl
  | cons e items ih =>
    rw [List.reverse_cons, List.append_assoc]
    exact ih (e :: acc)

theorem foldl_push_call (o : Nat) (op : String) (acc args : List Expr) :
    args.foldl (fun f e => f.push e) (Frame.call o op acc) = .call o op (args.reverse ++ acc) := by
  induction args generalizing acc with
  | nil => rfl
  | cons e args ih =>
    rw [List.reverse_cons, List.append_assoc]
    exact ih (e :: acc)

theorem closing_foldl_push (frame : Frame) (items : List Expr) :
    (items.foldl (fun f e => f.push e) frame).closing = frame.closing := by
  induction items generalizing frame with
  | nil => rfl
  | cons e items ih => exact (ih (frame.push e)).trans (by cases frame <;> rfl)

theorem read_closing (frame : Frame) (frames : List Frame) (offset : Nat) (rest : List Located) :
    read (frame :: frames) (⟨frame.closing, offset⟩ :: rest) = resume frames frame.closed rest := by
  cases frame <;> cases frames <;> rfl

/-- The expression is read from its tokens, whatever brackets are open and whatever follows. -/
def Readable (e : Expr) : Prop :=
  ∀ located : List Located, located.map Located.token = e.tokens →
    ∀ (stack : List Frame) (rest : List Located),
      read stack (located ++ rest) = resume stack e rest

/-- Items that are read one by one are pushed onto the open bracket. -/
theorem read_items (hitems : ∀ e ∈ items, e.Readable)
    (h : located.map Located.token = tokensOfAll items) (frame : Frame) (frames : List Frame)
    (rest : List Located) : read (frame :: frames) (located ++ rest) =
      read (items.foldl (fun f e => f.push e) frame :: frames) rest := by
  induction items generalizing located frame with
  | nil =>
    rw [List.map_eq_nil_iff.mp h]
    rfl
  | cons e items ih =>
    obtain ⟨hfirst, hothers⟩ := List.forall_mem_cons.mp hitems
    obtain ⟨first, others, rfl, he, hrest⟩ := List.map_eq_append_iff.mp h
    rw [List.append_assoc, hfirst _ he]
    exact ih hothers hrest (frame.push e)

/-- An open bracket is read to its end: the items and the closing token. -/
theorem read_bracket (hitems : ∀ e ∈ items, e.Readable) (frame : Frame) (frames : List Frame)
    (rest : List Located) (h : located.map Located.token = tokensOfAll items ++ [frame.closing]) :
    read (frame :: frames) (located ++ rest) =
      resume frames (items.foldl (fun f e => f.push e) frame).closed rest := by
  obtain ⟨inner, last, rfl, hinner, hlast⟩ := List.map_eq_append_iff.mp h
  obtain ⟨⟨_, offset⟩, rfl, hclosing⟩ := List.map_eq_singleton_iff.mp hlast
  rw [List.append_assoc, read_items hitems hinner, ← read_closing _ _ offset, closing_foldl_push,
    ← hclosing]
  rfl

theorem readable_of_plain {e : Expr} (he : e.Plain) : e.Readable := by
  have hatom {l : List Located} {t : Token} (hl : l.map Located.token = [t]) :
      ∃ offset, l = [⟨t, offset⟩] := by
    obtain ⟨⟨_, offset⟩, rfl, rfl⟩ := List.map_eq_singleton_iff.mp hl
    exact ⟨offset, rfl⟩
  induction he with
  | nil | int | float | string =>
    intro located h stack rest
    obtain ⟨offset, rfl⟩ := hatom h
    cases stack <;> rfl
  | bool b =>
    intro located h stack rest
    cases b <;>
    · obtain ⟨offset, rfl⟩ := hatom h
      cases stack <;> rfl
  | symbol hpath =>
    intro located h stack rest
    obtain ⟨offset, rfl⟩ := hatom h
    rw [← ofSymbol_of_notMem hpath]
    cases stack <;> rfl
  | @list items _ ih =>
    intro located h stack rest
    obtain ⟨⟨_, o⟩, body, rfl, rfl, hbody⟩ := List.map_eq_cons_iff.mp h
    have hread := read_bracket ih (.list o []) stack rest hbody
    rw [foldl_push_list, List.append_nil, Frame.closed, List.reverse_reverse] at hread
    rw [List.cons_append, read]
    exact hread
  | @call op args _ ih =>
    intro located h stack rest
    obtain ⟨⟨_, o⟩, tail, rfl, rfl, htail⟩ := List.map_eq_cons_iff.mp h
    obtain ⟨⟨_, _⟩, body, rfl, rfl, hbody⟩ := List.map_eq_cons_iff.mp htail
    have hread := read_bracket ih (.call o op []) stack rest hbody
    rw [foldl_push_call, List.append_nil, Frame.closed, List.reverse_reverse] at hread
    rw [List.cons_append, List.cons_append, read]
    exact hread

end Completeness

/-- Reading accepts the tokens of plain expressions, and nothing else. -/
theorem ofTokens_eq_ok_iff {located : List Located} {e : Expr} :
    ofTokens located = .ok e ↔ e.Plain ∧ located.map Located.token = e.tokens := by
  constructor
  · intro h
    unfold ofTokens at h
    split at h
    next => cases h
    next hread =>
      cases h
      simpa [Accounts, written] using accounts_of_read hread (by simp)
    next => cases h
  · rintro ⟨he, htokens⟩
    have hread := readable_of_plain he _ htokens [] []
    rw [List.append_nil, resume] at hread
    simp [ofTokens, hread]

/-- The tokens are those of the parts in order, each of them plain. -/
def Consists (located : List Located) (parts : List Part) : Prop :=
  (∀ p ∈ parts, p.Plain) ∧ located.map Located.token = parts.flatMap Part.tokens

theorem consists_of_partsOfTokens {located : List Located} {es : List Expr}
    (h : partsOfTokens located = .ok es) :
    ∃ parts, Consists located parts ∧ es = parts.map Part.expr := by
  fun_induction partsOfTokens located generalizing es with
  | case1 =>
    cases h
    exact ⟨[], ⟨by simp, rfl⟩, rfl⟩
  | case2 text offset rest ih =>
    cases hrest : partsOfTokens rest with
    | error cause =>
      rw [hrest] at h
      cases h
    | ok others =>
      rw [hrest] at h
      cases h
      obtain ⟨parts, ⟨hplain, htokens⟩, rfl⟩ := ih hrest
      refine ⟨.literal text :: parts, ⟨List.forall_mem_cons.mpr ⟨trivial, hplain⟩, ?_⟩, rfl⟩
      rw [List.map_cons, htokens]
      rfl
  | case5 offset rest e _ after hread ih =>
    obtain ⟨he, hregion⟩ := accounts_of_read hread (by simp)
    cases hafter : partsOfTokens after with
    | error cause =>
      rw [hafter] at h
      cases h
    | ok others =>
      rw [hafter] at h
      cases h
      obtain ⟨parts, ⟨hplain, htokens⟩, rfl⟩ := ih hafter
      refine ⟨.region e :: parts, ⟨List.forall_mem_cons.mpr ⟨he, hplain⟩, ?_⟩, rfl⟩
      rw [written, List.nil_append, List.map_cons, htokens] at hregion
      rw [List.map_cons, hregion]
      simp [Part.tokens]
  | _ => cases h

theorem partsOfTokens_of_consists {parts : List Part} {located : List Located}
    (h : Consists located parts) : partsOfTokens located = .ok (parts.map Part.expr) := by
  induction parts generalizing located with
  | nil =>
    rw [List.map_eq_nil_iff.mp h.2, partsOfTokens]
    rfl
  | cons p parts ih =>
    obtain ⟨hparts, htokens⟩ := h
    obtain ⟨hp, hplain⟩ := List.forall_mem_cons.mp hparts
    obtain ⟨first, rest, rfl, hfirst, hrest⟩ := List.map_eq_append_iff.mp htokens
    have hothers := ih ⟨hplain, hrest⟩
    cases p with
    | literal text =>
      obtain ⟨⟨_, offset⟩, rfl, rfl⟩ := List.map_eq_singleton_iff.mp hfirst
      rw [List.singleton_append, partsOfTokens, hothers]
      rfl
    | region e =>
      obtain ⟨⟨_, offset⟩, region, rfl, rfl, hregion⟩ := List.map_eq_cons_iff.mp hfirst
      obtain ⟨inner, last, rfl, hinner, hlast⟩ := List.map_eq_append_iff.mp hregion
      obtain ⟨⟨_, at_⟩, rfl, rfl⟩ := List.map_eq_singleton_iff.mp hlast
      have hread := readable_of_plain hp _ hinner [] (⟨.closeRegion, at_⟩ :: rest)
      rw [List.cons_append, List.append_assoc, List.singleton_append, partsOfTokens]
      split
      next hfail => cases hread.symm.trans hfail
      next hend => cases hread.symm.trans hend
      next hclosed =>
        cases hread.symm.trans hclosed
        rw [hothers]
        rfl
      next hopen hextra =>
        cases hread.symm.trans hextra
        exact absurd rfl hopen

theorem ofTemplateTokens_of_consists {located : List Located} {parts : List Part}
    (h : Consists located parts) : ofTemplateTokens located = .ok (ofParts parts) := by
  unfold ofTemplateTokens
  rw [partsOfTokens_of_consists h]
  obtain ⟨-, htokens⟩ := h
  rcases parts with _ | ⟨_ | e, _ | ⟨q, parts⟩⟩
  · rfl
  · obtain ⟨⟨_, offset⟩, rfl, rfl⟩ := List.map_eq_singleton_iff.mp htokens
    rfl
  · rfl
  · obtain ⟨⟨_, offset⟩, rest, rfl, rfl, -⟩ := List.map_eq_cons_iff.mp htokens
    rfl
  · rfl

theorem ofTemplateTokens_eq_ok_iff {located : List Located} {e : Expr} :
    ofTemplateTokens located = .ok e ↔ ∃ parts, Consists located parts ∧ e = ofParts parts := by
  constructor
  · intro h
    cases hread : partsOfTokens located with
    | error cause =>
      unfold ofTemplateTokens at h
      rw [hread] at h
      cases h
    | ok es =>
      obtain ⟨parts, hconsists, -⟩ := consists_of_partsOfTokens hread
      have hparts := ofTemplateTokens_of_consists hconsists
      exact ⟨parts, hconsists, Except.ok.inj (h.symm.trans hparts)⟩
  · rintro ⟨parts, hconsists, rfl⟩
    exact ofTemplateTokens_of_consists hconsists

/-- Reading is the inverse of linearization: tokens are accepted exactly if a plain
expression has them, which is then the answer and the only one; and a template is
accepted exactly if it consists of literals and regions with plain expressions. -/
theorem reads_linearizations (located : List Located) :
    (∀ e, ofTokens located = .ok e ↔ e.Plain ∧ located.map Located.token = e.tokens) ∧
      Set.InjOn tokens {e | e.Plain} ∧
      ∀ e, ofTemplateTokens located = .ok e ↔
        ∃ parts, Consists located parts ∧ e = ofParts parts := by
  refine ⟨fun e => ofTokens_eq_ok_iff, fun e he e' he' htokens => ?_,
    fun e => ofTemplateTokens_eq_ok_iff⟩
  have hmap : (e.tokens.map fun t => (⟨t, 0⟩ : Located)).map Located.token = e.tokens := by
    rw [List.map_map]
    exact List.map_id _
  have hread := ofTokens_eq_ok_iff.mpr ⟨he, hmap⟩
  have hread' := ofTokens_eq_ok_iff.mpr ⟨he', hmap.trans htokens⟩
  exact Except.ok.inj (hread.symm.trans hread')

end PlaybookRunner.Expr
