import PlaybookRunner.Expr.Eval

/-!
# Texts that hold expressions

A text is compiled to a tree and evaluated. The automatic way takes a text
without delimiters for an expression; the template way takes it for literal
text.
-/

namespace PlaybookRunner

/-- Why a text has no value, by the stage that failed. -/
inductive ExprError
  | syntaxError (cause : SyntaxError)
  | parse (cause : ParseError)
  | eval (cause : EvalError)

/-- The wording of an expression error. -/
def ExprError.message : ExprError → String
  | syntaxError cause => "syntax error: " ++ cause.message
  | parse cause => "parse error: " ++ cause.message
  | eval cause => "evaluation error: " ++ cause.message

namespace Expr

/-- The tree of a scanned text. -/
def ofScan (scanned : Except SyntaxError TokenStream) : Except ExprError Expr :=
  match scanned with
  | .error e => .error (.syntaxError e)
  | .ok stream =>
    match ofStream stream with
    | .error e => .error (.parse e)
    | .ok e => .ok e

/-- Compiles a text, as a template if it holds a delimiter, else as an expression. -/
def compile (text : String) : Except ExprError Expr := ofScan (TokenStream.ofText text)

/-- Compiles a text as a template. -/
def compileTemplate (text : String) : Except ExprError Expr :=
  ofScan (TokenStream.ofTemplate text)

section

variable {m : Type → Type} [Monad m]

/-- The value of a compiled text. -/
def run (look : String → m (Option Value)) (compiled : Except ExprError Expr) :
    m (Except ExprError Value) :=
  match compiled with
  | .error e => return .error e
  | .ok e => do
    match ← (eval look e).run with
    | .ok v => return .ok v
    | .error e => return .error (.eval e)

/-- The value of a text, compiled the automatic way. -/
def evalText (look : String → m (Option Value)) (text : String) : m (Except ExprError Value) :=
  run look (compile text)

/-- The value of a template: that of a region alone, else a text. -/
def evalTemplate (look : String → m (Option Value)) (text : String) :
    m (Except ExprError Value) :=
  run look (compileTemplate text)

/-- The text of a template. -/
def expandTemplate (look : String → m (Option Value)) (text : String) :
    m (Except ExprError String) := do
  return (← evalTemplate look text).map Value.display

end

end Expr

end PlaybookRunner
