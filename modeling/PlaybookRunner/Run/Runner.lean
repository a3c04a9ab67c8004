import PlaybookRunner.Run.Event
import PlaybookRunner.Run.Execute

/-!
# Running a playbook

Plays run their tasks in order; then deferred tasks are awaited, play by play;
then each play runs the handlers that were notified, once each in the order of
their declaration. The first error ends the run. A task that fails before its
command can report is still reported as started and finished.
-/

namespace PlaybookRunner

variable {σ : Type}

/-- What a run is set up with. -/
structure Setup (σ : Type) where
  host : Host σ
  registry : Registry
  /-- The scope outside every play. -/
  root : Scope
  /-- How many module calls may be open inside each other. -/
  callDepth : Nat := 1000

/-- A deferred task that has not been awaited yet. -/
structure Deferred where
  task : Task
  /-- The expanded name. -/
  name : String
  /-- The future that runs it. -/
  future : Nat

/-- The state of one play. -/
structure PlayState where
  play : Play
  /-- The table of the play's variables and futures. -/
  table : Nat
  /-- The names of handlers notified so far. -/
  notified : List String := []
  deferred : List Deferred := []
deriving Inhabited

/-- Adds a name that is not there yet. -/
def addName (names : List String) (name : String) : List String :=
  if names.contains name then names else names ++ [name]

/-- Notifies the handlers of a task; a second notification changes nothing. -/
def PlayState.notify (s : PlayState) (task : Task) : PlayState :=
  { s with notified := task.notify.foldl addName s.notified }

/-- The state of a run. -/
structure RunState (σ : Type) where
  world : World σ
  events : Array Event := #[]
  /-- The play that is running. -/
  current : PlayState

/-- Why a run stops. -/
inductive Stop
  | failed (cause : Error)
  /-- Module calls are nested beyond the limit; nothing more is reported. -/
  | tooDeep

/-- A part of a run: it goes through the state and may stop the run. -/
abbrev Step (σ : Type) := ExceptT Stop (StateM (RunState σ))

namespace Step

/-- Appends an event. -/
def emit (e : Event) : Step σ Unit := modify fun s => { s with events := s.events.push e }

/-- Runs a computation in the world. -/
def inWorld {α : Type} (x : RunM σ α) : Step σ α := do
  let s ← get
  let (a, world) := x.run s.world
  set { s with world }
  return a

/-- Adds a table that holds some variables. -/
def newTable (vars : Vars) : Step σ Nat := inWorld fun w => w.newTable vars

/-- Runs a part to its end and answers how it ended. -/
def outcome {α : Type} (x : Step σ α) : Step σ (Except Stop α) :=
  ExceptT.mk do return .ok (← x.run)

/-- Reports a task that failed before it could start. -/
def reportFailure (task : Task) (name args : String) (cause : Error) : Step σ Unit := do
  emit (.startTask task name args [])
  emit (.finishTask task (some (TaskResult.ofFailure cause.message)))

/-- Stops with an error of a task of the running play. -/
def failTask {α : Type} (name : String) (cause : Error) : Step σ α := do
  throw (.failed (cause.inTask (← get).current.play.name name))

end Step

/-- What a prepared task will do. -/
inductive Action
  | call (module_ : Module)
  | run (command : Command)

/-- A task whose templates are expanded and whose parameters are bound. -/
structure Prepared where
  name : String
  args : String
  params : Vars
  action : Action

/-- A task that cannot be prepared: the name and the arguments as far as they
were expanded, and the cause. -/
structure Unprepared where
  name : String
  args : String
  cause : Error

namespace Task

/-- The scope of a task: the variables of its includes precede the given scope. -/
def scope (task : Task) (outer : Scope) : Scope := .fixed task.includeVars :: outer

/-- Expands the text values among structured arguments. -/
def expandVars (look : String → RunM σ (Option Value)) : Vars → RunM σ (Except ExprError Vars)
  | [] => return .ok []
  | (key, .string text) :: rest => do
    match ← Expr.expandTemplate look text with
    | .error e => return .error e
    | .ok expanded =>
      return (← expandVars look rest).map ((key, .string expanded) :: ·)
  | (key, value) :: rest => do
    return (← expandVars look rest).map ((key, value) :: ·)

/-- Chooses what a task with expanded texts does in a play. -/
def bindAction (registry : Registry) (play : Play) (task : Task) (name args : String)
    (vars : Vars) : Except Error Prepared :=
  match play.module? task.command with
  | some m =>
    if task.isDeferred then .error (.invalidTask name "a module call cannot run deferred")
    else
      match bindParams task.command args vars with
      | .error e => .error (.bind e)
      | .ok params => .ok { name, args, params, action := .call m }
  | none =>
    match bindParams task.command args vars with
    | .error e => .error (.bind e)
    | .ok params =>
      match registry.bind task.command params with
      | .error e => .error (.bind e)
      | .ok command => .ok { name, args, params, action := .run command }

/-- Expands and binds a task in its scope: first the name, then the argument
text, then the structured arguments. -/
def prepare (setup : Setup σ) (play : Play) (task : Task) (scope : Scope) :
    RunM σ (Except Unprepared Prepared) := do
  let look := scope.read setup.host
  match ← Expr.expandTemplate look task.name with
  | .error e => return .error { name := task.name, args := "", cause := .expr e }
  | .ok name =>
    match ← Expr.expandTemplate look task.args with
    | .error e => return .error { name, args := "", cause := .expr e }
    | .ok args =>
      match ← expandVars look task.vars with
      | .error e => return .error { name, args, cause := .expr e }
      | .ok vars =>
        match bindAction setup.registry play task name args vars with
        | .error cause => return .error { name, args, cause }
        | .ok prepared => return .ok prepared

/-- The truth of a condition: a text with a region or an opening bracket is an
expression, any other text is judged as it stands. -/
def holds (look : String → RunM σ (Option Value)) (condition : String) :
    RunM σ (Except ExprError Bool) := do
  let text := Text.trimmed condition
  let isExpression :=
    (Text.breakPair '{' text.toList).isSome || text.toList.head? == some '(' ||
      text.toList.head? == some '['
  let value ← if isExpression then Expr.evalText look text else Expr.evalTemplate look text
  return value.map Value.truthy

/-- The condition of a task, unless it is blank. -/
def condition? (task : Task) : Option String :=
  task.condition.filter fun c => !Text.allBlank c.toList

end Task

namespace Runner

/-- Registers, records and reports a finished task, and notifies its handlers
if it changed something. -/
def complete (task : Task) (result : TaskResult) : Step σ Unit := do
  let s ← get
  match task.register with
  | some name =>
    Step.inWorld (modify (World.set [.table s.current.table] name result.registered.toValue))
  | none => pure ()
  Step.inWorld (modify (World.record task result))
  Step.emit (.finishTask task (some result))
  if !result.failed && result.changed then
    modify fun s => { s with current := s.current.notify task }

/-- Runs parts in order up to the first that stops; answers whether any of them
changed something. -/
def anyChanged {α : Type} (run : α → Step σ Bool) : List α → Step σ Bool
  | [] => return false
  | a :: rest => do
    let first ← run a
    let others ← anyChanged run rest
    return first || others

/-- The name of the future that a task runs in, if it runs deferred. -/
def futureName? (task : Task) (name : String) : Option String :=
  match task.future with
  | some future => some future
  | none => if task.isAsync then some name else none

/-- Dispatches a command as a future of the play. -/
def dispatch (setup : Setup σ) (task : Task) (name future : String) (command : Command)
    (scope : Scope) : Step σ Unit := do
  let s ← get
  let id ← Step.inWorld fun w => w.addFuture s.current.table future (.command command scope task)
  let _ ← Step.inWorld (Future.force setup.host id)
  Step.emit (.finishTask task none)
  modify fun s => { s with
    current := { s.current with deferred := s.current.deferred ++ [{ task, name, future := id }] } }

/-- Runs a command at once. -/
def runCommand (setup : Setup σ) (task : Task) (name : String) (command : Command)
    (scope : Scope) : Step σ Bool := do
  match ← Step.inWorld (command.run setup.host scope task) with
  | .ok result =>
    complete task result
    return result.changed
  | .error e =>
    complete task (Command.failureResult e)
    Step.failTask name (.command e)

/-- Runs the tasks of a module in a table that holds the parameters of the call. -/
def callModule (call : Task → Scope → Step σ Bool) (task : Task) (prepared : Prepared)
    (m : Module) (scope : Scope) : Step σ Bool := do
  let table ← Step.newTable prepared.params
  let inner : Scope := .table table :: scope
  match ← Step.outcome (anyChanged (fun sub => call sub inner) m.tasks) with
  | .ok changed =>
    complete task (if changed then TaskResult.ofChange else TaskResult.ok)
    return changed
  | .error .tooDeep => throw .tooDeep
  | .error (.failed cause) =>
    Step.emit (.finishTask task (some (TaskResult.ofFailure cause.message)))
    Step.failTask prepared.name cause

/-- Runs a task once, without its condition and its items. -/
def runOnce (setup : Setup σ) (call : Task → Scope → Step σ Bool) (task : Task)
    (outer : Scope) : Step σ Bool := do
  let scope := task.scope outer
  match ← Step.inWorld (task.prepare setup (← get).current.play scope) with
  | .error u =>
    Step.reportFailure task u.name u.args u.cause
    Step.failTask u.name u.cause
  | .ok prepared =>
    Step.emit (.startTask task prepared.name prepared.args prepared.params)
    match prepared.action with
    | .call m => callModule call task prepared m scope
    | .run command =>
      match futureName? task prepared.name with
      | some future =>
        dispatch setup task prepared.name future command scope
        return false
      | none => runCommand setup task prepared.name command scope

/-- Runs a task once for an item, which it sees as a variable of its own. -/
def runItem (setup : Setup σ) (call : Task → Scope → Step σ Bool) (task : Task)
    (outer : Scope) (item : Value) : Step σ Bool := do
  let table ← Step.newTable [("item", item)]
  runOnce setup call task (.table table :: outer)

/-- Runs a task if its condition holds, for each of its items. -/
def runTaskWith (setup : Setup σ) (call : Task → Scope → Step σ Bool) (task : Task)
    (outer : Scope) : Step σ Bool := do
  let due ←
    match task.condition? with
    | none => pure true
    | some condition =>
      match ← Step.inWorld (Task.holds ((task.scope outer).read setup.host) condition) with
      | .ok due => pure due
      | .error e => do
        Step.reportFailure task task.name "" (.expr e)
        Step.failTask task.name (.expr e)
  if due then
    match task.items with
    | none => runOnce setup call task outer
    | some items => anyChanged (runItem setup call task outer) items
  else return false

/-- Runs a task with so many module calls inside each other. -/
def runTask (setup : Setup σ) : Nat → Task → Scope → Step σ Bool
  | 0, _, _ => throw .tooDeep
  | depth + 1, task, outer => runTaskWith setup (runTask setup depth) task outer

/-- The scope of a play. -/
def playScope (setup : Setup σ) (s : PlayState) : Scope := .table s.table :: setup.root

/-- Runs a task of the running play. -/
def runPlayTask (setup : Setup σ) (task : Task) : Step σ Bool := do
  runTask setup setup.callDepth task (playScope setup (← get).current)

/-- Runs the tasks of a play, and answers the state it is left in. -/
def runPlay (setup : Setup σ) (play : Play) : Step σ PlayState := do
  let table ← Step.newTable play.vars
  modify fun s => { s with current := { play, table } }
  let _ ← anyChanged (runPlayTask setup) play.tasks
  return (← get).current

/-- Awaits one deferred task. -/
def await (setup : Setup σ) (d : Deferred) : Step σ Unit := do
  match ← Step.inWorld (Future.force setup.host d.future) with
  | .ok result =>
    Step.emit (.finishTask d.task (some result))
    if result.changed then
      modify fun s => { s with current := s.current.notify d.task }
  | .error e =>
    Step.emit (.finishTask d.task (some (TaskResult.ofFailure e.message)))
    Step.failTask d.name e

/-- Awaits the deferred tasks of the running play in the order of their dispatch. -/
def drain (setup : Setup σ) : Step σ Unit := do
  let deferred := (← get).current.deferred
  modify fun s => { s with current := { s.current with deferred := [] } }
  deferred.forM (await setup)

/-- Makes a play the running one, and awaits its deferred tasks. -/
def drainPlay (setup : Setup σ) (s : PlayState) : Step σ PlayState := do
  modify fun r => { r with current := s }
  drain setup
  return (← get).current

/-- Runs a handler if it was notified; `started` says whether one ran before.
Answers whether one has run now. -/
def runHandler (setup : Setup σ) (started : Bool) (handler : Task) : Step σ Bool := do
  if (← get).current.notified.contains handler.name then
    if !started then Step.emit .startHandlers
    let _ ← runPlayTask setup handler
    return true
  else return started

/-- Runs the notified handlers of a play, and awaits what they deferred. -/
def runHandlers (setup : Setup σ) (started : Bool) (s : PlayState) : Step σ Bool := do
  modify fun r => { r with current := s }
  let started ← s.play.handlers.foldlM (runHandler setup) started
  drain setup
  return started

/-- The phases of a run. -/
def runPhases (setup : Setup σ) (plays : List Play) : Step σ Unit := do
  Step.emit .startTasks
  let states ← plays.mapM (runPlay setup)
  Step.emit .finishTasks
  let states ← states.mapM (drainPlay setup)
  let started ← states.foldlM (runHandlers setup) false
  if started then Step.emit .finishHandlers
  Step.emit .finishAll

/-- A finished run. -/
structure Report (σ : Type) where
  /-- The error that ended the run; absent also when the run went too deep. -/
  error : Option Error
  /-- Module calls were nested beyond the limit. -/
  tooDeep : Bool
  events : List Event
  world : World σ

/-- Runs the plays of a playbook in a world. What an earlier run recorded is
forgotten; its variables outside the plays stay. -/
def run (setup : Setup σ) (book : Playbook) (world : World σ) : Report σ :=
  let start : RunState σ :=
    { world := { world with recorded := #[] }, current := { play := { name := "" }, table := 0 } }
  let (outcome, s) := (runPhases setup book.plays).run.run start
  match outcome with
  | .ok () =>
    { error := none, tooDeep := false, events := s.events.toList ++ [.ended none],
      world := s.world }
  | .error (.failed e) =>
    { error := some e, tooDeep := false, events := s.events.toList ++ [.ended (some e)],
      world := s.world }
  | .error .tooDeep =>
    { error := none, tooDeep := true, events := s.events.toList, world := s.world }

end Runner

end PlaybookRunner
