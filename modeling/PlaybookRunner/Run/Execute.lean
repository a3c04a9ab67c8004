import PlaybookRunner.Run.World
import PlaybookRunner.Text.Path

/-!
# Running commands and futures

Reading a variable may force a future, whose job may read variables in turn.
Forcing is bounded by the jobs that pending futures can still bring about: each
forced job was pending before, so the bound is never reached.
-/

namespace PlaybookRunner

variable {σ : Type}

/-- A computation in a world. -/
abbrev RunM (σ : Type) := StateM (World σ)

/-- Forces a future: its result or why it failed. -/
abbrev Forcing (σ : Type) := Nat → RunM σ (Except Error TaskResult)

/-- The value of a variable in a scope: in each layer a future precedes a
variable, and a failed future reads as a failed result. -/
def Scope.readWith (force : Forcing σ) : Scope → String → RunM σ (Option Value)
  | [], _ => return none
  | .fixed vars :: rest, key =>
    match Dict.get? vars key with
    | some value => return some value
    | none => readWith force rest key
  | .table index :: rest, key => do
    let table := (← get).table index
    match table.futures.get? key with
    | some future =>
      match ← force future with
      | .ok result => return some result.toValue
      | .error e => return some (TaskResult.ofFailure e.message).toValue
    | none =>
      match table.vars.get? key with
      | some value => return some value
      | none => readWith force rest key

namespace Command

/-- The place of a file that a command names. -/
def file (host : Host σ) (name : String) : String := Path.join host.baseDir name

/-- A text without trailing line breaks. -/
def withoutFinalBreaks (s : String) : String :=
  String.ofList (s.toList.reverse.dropWhile (· == '\n')).reverse

/-- The result of a process, and its failure if it did not end well. -/
def ofOutcome (shown : String) : ProcessOutcome → Except CommandError TaskResult
  | .notStarted reason => .error (.failed s!"Failed to execute '{shown}': {reason}" none)
  | .finished status stdout stderr =>
    let rc : Int := (status.map Int.ofNat).getD (-1)
    let result := ((TaskResult.ofChange.withField "rc" (.int (Int64.ofInt rc))).withField
      "stdout" (.string (withoutFinalBreaks stdout))).withField
      "stderr" (.string (withoutFinalBreaks stderr))
    if rc == 0 then .ok result
    else .error (.failed s!"'{shown}' exited with code {rc}" (some { result with failed := true }))

/-- Runs words as a process in the directory that the parameters name. -/
def execute (host : Host σ) (params : ExecParams) (argv : List String) (shown : String) :
    RunM σ (Except CommandError TaskResult) := do
  let dir := file host (params.chdir.getD ".")
  let w ← get
  let (outcome, state) := host.runProcess argv dir w.host
  set { w with host := state }
  return ofOutcome shown outcome

/-- The result of a command whose guards say that it need not run. -/
def skipped? (host : Host σ) (state : σ) (params : ExecParams) : Option TaskResult :=
  let present (name : String) : Bool := host.pathExists state (file host name)
  match params.creates.filter present, params.removes.filter fun name => !present name with
  | some name, _ => some (TaskResult.ok.withMessage s!"Skipped, '{name}' exists")
  | none, some name => some (TaskResult.ok.withMessage s!"Skipped, '{name}' does not exist")
  | none, none => none

/-- The command line of the parameters, without white space around it. -/
def commandLine (params : ExecParams) : Except CommandError String :=
  match params.cmd.map Text.trimmed with
  | some line =>
    if line == "" then
      .error (.invalidParameter "'cmd' or free-form command text is required")
    else .ok line
  | none => .error (.invalidParameter "'cmd' or free-form command text is required")

/-- The words of a program call. -/
def programWords (params : ExecParams) : Except CommandError (List String) := do
  let words ←
    match params.argv with
    | some argv => pure argv
    | none =>
      let line ← commandLine params
      match Text.shellWords? line.toList with
      | some words => pure (words.map String.ofList)
      | none => .error (.invalidParameter Arguments.unclosedMessage)
  if words.isEmpty then .error (.invalidParameter "argv cannot be empty") else return words

/-- Checks conditions in order up to the first that does not hold. -/
def runChecks (look : String → RunM σ (Option Value)) (message : Option String) :
    List String → RunM σ (Except CommandError TaskResult)
  | [] => return .ok (TaskResult.ok.withMessage "All assertions passed")
  | condition :: rest => do
    match ← Expr.evalText look condition with
    | .error e => return .error (.expr e)
    | .ok value =>
      if value.truthy then runChecks look message rest
      else
        let text := message.getD s!"Assertion failed: {condition}"
        let result := ((TaskResult.ofFailure text).withField "assertion"
          (.string condition)).withField "evaluated_to" value
        return .error (.failed text (some result))

/-- What is reported for a variable that is not bound. -/
def undefinedText : String := "VARIABLE IS NOT DEFINED!"

/-- Reports a message or a variable. -/
def runDebug (look : String → RunM σ (Option Value)) (message path : Option String) :
    RunM σ (Except CommandError TaskResult) :=
  match path, message with
  | some _, some _ => return .error (.invalidParameter "'msg' and 'var' are mutually exclusive")
  | some path, none => do
    match ← (Expr.resolve look path).run with
    | .ok value => return .ok (TaskResult.ok.withField path value)
    | .error (.undefined _) => return .ok (TaskResult.ok.withField path (.string undefinedText))
    | .error e => return .error (.expr (.eval e))
  | none, some message => return .ok (TaskResult.ok.withMessage message)
  | none, none => return .ok (TaskResult.ok.withMessage "Hello world!")

/-- Binds facts in a scope. -/
def runSetFact (scope : Scope) (facts : Vars) : RunM σ (Except CommandError TaskResult) :=
  match facts.get? Arguments.rawKey with
  | some raw =>
    return .error (.invalidParameter
      ("set_fact takes key=value pairs, found '" ++ raw.display ++ "'"))
  | none =>
    if facts.isEmpty then
      return .error (.invalidParameter "set_fact requires at least one key=value pair")
    else do
      modify (World.extend scope facts)
      return .ok { data := facts }

/-- Runs a command in a scope. -/
def runWith (host : Host σ) (force : Forcing σ) (scope : Scope) (task : Task) :
    Command → RunM σ (Except CommandError TaskResult)
  | program params => do
    match skipped? host (← get).host params with
    | some result => return .ok result
    | none =>
      match programWords params with
      | .error e => return .error e
      | .ok words => execute host params words (Text.joinShellWords words)
  | shell params => do
    match skipped? host (← get).host params with
    | some result => return .ok result
    | none =>
      match commandLine params with
      | .error e => return .error e
      | .ok line => execute host params ["sh", "-c", line] line
  | check conditions message =>
    if conditions.isEmpty then
      return .error (.invalidParameter "'that' requires at least one condition")
    else runChecks (scope.readWith force) message conditions
  | debug message path => runDebug (scope.readWith force) message path
  | setFact facts => runSetFact scope facts
  | external name params => do
    let w ← get
    let (outcome, state) := host.runExternal task name params w.host
    set { w with host := state }
    return outcome

/-- The result that stands for a failure: what the command produced marked as
failed, with a message. -/
def failureResult (e : CommandError) : TaskResult :=
  match e.result? with
  | some produced =>
    let result := { produced with failed := true }
    if result.message?.isSome then result else result.withMessage e.message
  | none => TaskResult.ofFailure e.message

end Command

/-- Runs a job: its result, or the words of its failure. -/
def Job.runWith (host : Host σ) (force : Forcing σ) : Job → RunM σ (Except String TaskResult)
  | succeed result => return .ok result
  | fail message => return .error (Error.config message).message
  | read scope key => do
    let seen ← scope.readWith force key
    return .ok ((TaskResult.ok.withField "found" (.bool seen.isSome)).withField
      "seen" (seen.getD .nil))
  | evaluate scope text => do
    match ← Expr.evalText (scope.readWith force) text with
    | .ok value => return .ok (TaskResult.ofChange.withField "value" value)
    | .error e => return .error e.message
  | register table name job => do
    modify fun w => (w.addFuture table name job).2
    return .ok (TaskResult.ok.withMessage "added")
  | panic => return .error "future body panicked"
  | command cmd scope task => do
    let outcome ← cmd.runWith host force scope task
    match outcome with
    | .ok result =>
      modify (World.record task result)
      return .ok result
    | .error e =>
      modify (World.record task (Command.failureResult e))
      return .error e.message

namespace Future

/-- Forces a future with at most so many jobs inside each other. -/
def forceWithin (host : Host σ) : Nat → Forcing σ
  | bound, future => do
    match (← get).futures[future]? with
    | none => return .error (.futureFailed "" "no such future")
    | some f =>
      let failure (message : String) : Except Error TaskResult :=
        .error (.futureFailed f.name message)
      match f.progress with
      | .ready result => return .ok result
      | .failed message => return failure message
      | .running => return failure "future reads its own result"
      | .pending job =>
        match bound with
        | 0 => return failure "too many jobs"
        | bound + 1 =>
          modify fun w => { w.setProgress future .running with executed := w.executed + 1 }
          match ← job.runWith host (forceWithin host bound) with
          | .ok result =>
            modify (World.setProgress future (.ready result))
            return .ok result
          | .error message =>
            modify (World.setProgress future (.failed message))
            return failure message

/-- Forces a future: the bound is what the pending futures can bring about. -/
def force (host : Host σ) : Forcing σ := fun future => do
  forceWithin host (← get).pendingWeight future

/-- Forces every future of a table that is registered now, in order. -/
def forceAll (host : Host σ) (futures : Dict Nat) :
    RunM σ (List (String × Except Error TaskResult)) :=
  futures.mapM fun (name, future) => return (name, ← force host future)

/-- The outcomes of the futures of a table. -/
def results (host : Host σ) (table : Nat) : RunM σ (List (String × Except Error TaskResult)) := do
  forceAll host ((← get).futuresOf table)

/-- The first failure in a list of outcomes. -/
def firstFailure : List (String × Except Error TaskResult) → Option Error
  | [] => none
  | (_, .error e) :: _ => some e
  | (_, .ok _) :: rest => firstFailure rest

/-- Settles the futures of a table, and answers the first failure. -/
def wait (host : Host σ) (table : Nat) : RunM σ (Option Error) :=
  return firstFailure (← results host table)

end Future

/-- The value of a variable in a scope. -/
def Scope.read (host : Host σ) (scope : Scope) (key : String) : RunM σ (Option Value) :=
  scope.readWith (Future.force host) key

/-- Runs a command in a scope. -/
def Command.run (host : Host σ) (scope : Scope) (task : Task) (command : Command) :
    RunM σ (Except CommandError TaskResult) :=
  command.runWith host (Future.force host) scope task

end PlaybookRunner
