import PlaybookRunner.Error
import PlaybookRunner.Text.Search

/-!
# Overrides

A variable is given as `key=value`. White space around the key does not count;
the value is inferred from its text.
-/

namespace PlaybookRunner.Overrides

/-- Reads one override. -/
def readPair (pair : String) : Except Error (String × Value) :=
  match Text.breakChar '=' pair.toList with
  | some (key, value) =>
    .ok (String.ofList (Text.trim key), Value.infer (String.ofList value))
  | none => .error (.config ("expected key=value, got '" ++ pair ++ "'"))

/-- The variables of some overrides, a later one winning. -/
def read (pairs : List String) : Except Error Vars :=
  (pairs.mapM readPair).map Dict.ofPairs

end PlaybookRunner.Overrides
