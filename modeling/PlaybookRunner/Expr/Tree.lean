import PlaybookRunner.Decimal.Layout
import PlaybookRunner.Expr.Token
import PlaybookRunner.Text.Quoted

/-!
# Expression trees

The language is prefix notation: an atom, a call `(op a b)` or a list `[a b]`.
Reading keeps a stack of the brackets that are still open, so it goes through
the tokens once.
-/

namespace PlaybookRunner

/-- An expression tree. -/
inductive Expr
  | nil
  | bool (value : Bool)
  | int (value : Int64)
  | float (value : Float)
  | string (text : String)
  /-- A variable, possibly a dotted path. -/
  | symbol (path : String)
  | list (items : List Expr)
  | call (op : String) (args : List Expr)
  /-- Parts of a template, whose texts are joined. -/
  | concat (parts : List Expr)
deriving Inhabited

/-- Why tokens do not form an expression. -/
inductive ParseError
  | unexpectedToken (token : Token) (offset : Nat)
  | unmatched (bracket : Char) (offset : Nat)
  | trailing (token : Token) (offset : Nat)
  | emptyApplication (offset : Nat)
  | emptyInput

/-- A token as messages name it. -/
def Token.describe : Token → String
  | openParen => "'('"
  | closeParen => "')'"
  | openBracket => "'['"
  | closeBracket => "']'"
  | int n => s!"integer {n.toInt}"
  | float x => s!"float {Decimal.plainText x}"
  | string s => s!"string {Text.quoted s}"
  | symbol name => s!"symbol '{name}'"
  | literal _ => "literal text"
  | openRegion => "'\x7b\x7b'"
  | closeRegion => "'\x7d\x7d'"

/-- The wording of a parse error. -/
def ParseError.message : ParseError → String
  | unexpectedToken token offset => s!"unexpected {token.describe} at offset {offset}"
  | unmatched bracket offset => s!"unmatched '{bracket}' at offset {offset}"
  | trailing token offset => s!"unexpected trailing {token.describe} at offset {offset}"
  | emptyApplication offset => s!"empty application '()' at offset {offset}"
  | emptyInput => "empty expression"

namespace Expr

/-- The atom of a symbol: three words are constants. -/
def ofSymbol (name : String) : Expr :=
  if name = "true" then bool true
  else if name = "false" then bool false
  else if name = "nil" then nil
  else symbol name

/-- An open bracket: its offset, the operator of a call, and the items read so
far in reverse. -/
inductive Frame
  | list (offset : Nat) (items : List Expr)
  | call (offset : Nat) (op : String) (args : List Expr)

/-- The error of a bracket that is never closed. -/
def Frame.unclosed : Frame → ParseError
  | list offset _ => .unmatched '[' offset
  | call offset _ _ => .unmatched '(' offset

/-- Adds an item to an open bracket. -/
def Frame.push (e : Expr) : Frame → Frame
  | list offset items => list offset (e :: items)
  | call offset op args => call offset op (e :: args)

/-- Reads one expression: from an empty stack up to its last token, else up to
the end of the outermost open bracket. Answers the tokens that are left. -/
def read : List Frame → List Located → Except ParseError (Expr × List Located)
  | [], [] => .error .emptyInput
  | frame :: _, [] => .error frame.unclosed
  | stack, ⟨token, offset⟩ :: rest =>
    let atom (e : Expr) : Except ParseError (Expr × List Located) :=
      match stack with
      | [] => .ok (e, rest)
      | frame :: frames => read (frame.push e :: frames) rest
    match token with
    | .int n => atom (int n)
    | .float x => atom (float x)
    | .string s => atom (string s)
    | .symbol name => atom (ofSymbol name)
    | .openBracket => read (.list offset [] :: stack) rest
    | .openParen =>
      match rest with
      | ⟨.symbol op, _⟩ :: after => read (.call offset op [] :: stack) after
      | ⟨.closeParen, _⟩ :: _ => .error (.emptyApplication offset)
      | [] => .error (.unmatched '(' offset)
      | ⟨.closeRegion, _⟩ :: _ => .error (.unmatched '(' offset)
      | ⟨other, at_⟩ :: _ => .error (.unexpectedToken other at_)
    | .closeBracket =>
      match stack with
      | .list _ items :: [] => .ok (list items.reverse, rest)
      | .list _ items :: frame :: frames => read (frame.push (list items.reverse) :: frames) rest
      | _ => .error (.unmatched ']' offset)
    | .closeParen =>
      match stack with
      | .call _ op args :: [] => .ok (call op args.reverse, rest)
      | .call _ op args :: frame :: frames =>
        read (frame.push (call op args.reverse) :: frames) rest
      | _ => .error (.unmatched ')' offset)
    | .closeRegion =>
      match stack with
      | [] => .error (.unexpectedToken .closeRegion offset)
      | frame :: _ => .error frame.unclosed
    | other => .error (.unexpectedToken other offset)

theorem length_lt_of_read {stack : List Frame} {tokens rest : List Located} {e : Expr}
    (h : read stack tokens = .ok (e, rest)) : rest.length < tokens.length := by
  fun_induction read stack tokens generalizing e rest <;> grind

/-- Reads an expression that takes up all tokens. -/
def ofTokens (tokens : List Located) : Except ParseError Expr :=
  match read [] tokens with
  | .error e => .error e
  | .ok (e, []) => .ok e
  | .ok (_, ⟨extra, offset⟩ :: _) => .error (.trailing extra offset)

/-- Reads the parts of a template: literals and regions with one expression each. -/
def partsOfTokens : List Located → Except ParseError (List Expr)
  | [] => .ok []
  | ⟨.literal text, _⟩ :: rest => (partsOfTokens rest).map (string text :: ·)
  | ⟨.openRegion, offset⟩ :: rest =>
    match _h : read [] rest with
    | .error e => .error e
    | .ok (_, []) => .error (.unmatched '{' offset)
    | .ok (e, ⟨.closeRegion, _⟩ :: after) => (partsOfTokens after).map (e :: ·)
    | .ok (_, ⟨extra, at_⟩ :: _) => .error (.trailing extra at_)
  | ⟨token, offset⟩ :: _ => .error (.unexpectedToken token offset)
termination_by tokens => tokens.length
decreasing_by
  · simp
  · have := length_lt_of_read _h
    simp at this ⊢
    omega

/-- The expression of a template: a region alone stands for itself, anything
else is joined to a text. -/
def ofTemplateTokens (tokens : List Located) : Except ParseError Expr := do
  let parts ← partsOfTokens tokens
  match parts, tokens with
  | [part], ⟨.openRegion, _⟩ :: _ => return part
  | parts, _ => return concat parts

/-- The expression of a scanned text. -/
def ofStream (stream : TokenStream) : Except ParseError Expr :=
  match stream.mode with
  | .expression => ofTokens stream.tokens
  | .template => ofTemplateTokens stream.tokens

end Expr

end PlaybookRunner
