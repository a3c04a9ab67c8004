/-!
# The syntax of shell scripts

A script is a tree of commands. Words consist of parts: plain text, parameters,
outputs of scripts, and arithmetic; a quoted part is never split.
-/

namespace PlaybookRunner.Shell

/-- What is done with the value of a parameter. -/
inductive Form
  | plain
  | length
  /-- Another word when the parameter is not set, or also when it is empty. -/
  | otherwise (alsoEmpty : Bool)
  /-- Likewise, and the parameter is set to the word. -/
  | assigning (alsoEmpty : Bool)
  /-- Likewise, and the script ends with the word as a complaint. -/
  | demanding (alsoEmpty : Bool)
  /-- Another word when the parameter is set. -/
  | instead (alsoEmpty : Bool)
  /-- No form that there is. -/
  | malformed
  /-- Without the shortest or longest start or end that a pattern describes. -/
  | without (fromStart longest : Bool)
deriving DecidableEq, Repr, Inhabited

/-- The value of the parameter itself is needed. -/
def Form.needsValue : Form → Bool
  | plain => true
  | length => true
  | without .. => true
  | _ => false

/-- How a redirection opens its file. -/
inductive Mode
  | read
  | write
  | append
deriving DecidableEq, Repr, Inhabited

mutual

/-- A part of a word. -/
inductive Part
  | text (text : String) (quoted : Bool)
  | parameter (name : String) (form : Form) (word : List Part) (quoted : Bool)
  | output (script : Node) (quoted : Bool)
  | arithmetic (expression : List Part) (quoted : Bool)

/-- A redirection of a numbered channel. -/
inductive Redirect
  | file (channel : Nat) (mode : Mode) (target : List Part)
  | duplicate (channel : Nat) (target : List Part)
  /-- Input from a document in the script itself, by its number. -/
  | document (channel : Nat) (index : Nat)

/-- A command. -/
inductive Node
  | nothing
  | simple (line : Nat) (assignments : List (String × List Part)) (words : List (List Part))
    (redirects : List Redirect)
  | sequence (first second : Node)
  | conjunction (first second : Node)
  | disjunction (first second : Node)
  | negation (body : Node)
  | pipeline (first second : Node)
  | background (body : Node)
  | group (body : Node) (redirects : List Redirect)
  | subshell (body : Node) (redirects : List Redirect)
  | choice (condition yes no : Node) (redirects : List Redirect)
  | loop (negated : Bool) (condition body : Node) (redirects : List Redirect)
  | each (name : String) (words : Option (List (List Part))) (body : Node)
    (redirects : List Redirect)
  | select (subject : List Part) (branches : List (List (List Part) × Node))
    (redirects : List Redirect)
  | define (name : String) (body : Node)

end

/-- A word: its parts in order. -/
abbrev Word := List Part

instance : Inhabited Node := ⟨.nothing⟩

/-- What is wrong with a script, and the line on which that shows. -/
structure Malformed where
  line : Nat
  message : String
deriving Repr, Inhabited

/-- A script with the documents that stand in it. When a line is malformed the
script is what stands before it. -/
structure Script where
  body : Node
  documents : List Word := []
  fault : Option Malformed := none
deriving Inhabited

end PlaybookRunner.Shell
