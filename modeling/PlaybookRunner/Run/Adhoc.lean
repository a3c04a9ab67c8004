import PlaybookRunner.Run.Execute

/-!
# Running a single command

A command can run outside any playbook: templates in its arguments are expanded
with the given variables, which also are its scope.
-/

namespace PlaybookRunner.Adhoc

variable {σ : Type}

/-- Binds and runs a command with arguments in a scope of some variables. -/
def run (host : Host σ) (registry : Registry) (command args : String) (vars : Vars) (state : σ) :
    Except Error TaskResult :=
  let (table, world) := ({ host := state } : World σ).newTable vars
  let scope : Scope := [.table table]
  let work : RunM σ (Except Error TaskResult) := do
    match ← Expr.expandTemplate (scope.read host) args with
    | .error e => return .error (.expr e)
    | .ok args =>
      match bindParams command args [] with
      | .error e => return .error (.bind e)
      | .ok params =>
        match registry.bind command params with
        | .error e => return .error (.bind e)
        | .ok bound =>
          match ← bound.run host scope { name := command, command, args } with
          | .ok result => return .ok result
          | .error e => return .error (.command e)
  (work.run world).1

end PlaybookRunner.Adhoc
