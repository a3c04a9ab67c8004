import PlaybookRunner.Proofs.Related
import PlaybookRunner.Run.Execute

/-!
# Readings of one world

Two forcings that agree on the worlds of an invariant give readings, commands
and jobs that agree there and keep the invariant. What is read and run changes
variables, records and surroundings, but futures only through the forcing.
-/

namespace PlaybookRunner

variable {σ α β : Type}

/-- In the worlds of an invariant both do the same, and they stay inside it. -/
def Agree (P : World σ → Prop) (x y : RunM σ α) : Prop := Related (fun v w => v = w ∧ P v) x y

/-- An invariant that speaks of the futures and of what was run only. -/
def AboutFutures (P : World σ → Prop) : Prop :=
  ∀ v w : World σ, w.futures = v.futures → w.executed = v.executed → P v → P w

namespace World

@[simp] theorem futures_set (scope : Scope) (key : String) (value : Value) (w : World σ) :
    (w.set scope key value).futures = w.futures := by
  unfold set
  split <;> rfl

@[simp] theorem executed_set (scope : Scope) (key : String) (value : Value) (w : World σ) :
    (w.set scope key value).executed = w.executed := by
  unfold set
  split <;> rfl

@[simp] theorem futures_extend (scope : Scope) (vars : Vars) (w : World σ) :
    (w.extend scope vars).futures = w.futures := by
  unfold extend
  induction vars generalizing w with
  | nil => rfl
  | cons p rest ih => rw [List.foldl_cons, ih, futures_set]

@[simp] theorem executed_extend (scope : Scope) (vars : Vars) (w : World σ) :
    (w.extend scope vars).executed = w.executed := by
  unfold extend
  induction vars generalizing w with
  | nil => rfl
  | cons p rest ih => rw [List.foldl_cons, ih, executed_set]

end World

/-- An invariant that what commands do besides reading keeps: they change the surroundings
and bind variables, and their results are recorded. -/
structure KeptByCommands (P : World σ → Prop) : Prop where
  setHost : ∀ (w : World σ) (s : σ), P w → P { w with host := s }
  extend : ∀ (w : World σ) (scope : Scope) (facts : Vars), P w → P (w.extend scope facts)
  record : ∀ (w : World σ) (t : Task) (result : TaskResult), P w → P (w.record t result)

theorem AboutFutures.kept {P : World σ → Prop} (hP : AboutFutures P) : KeptByCommands P where
  setHost w _ hw := hP w _ rfl rfl hw
  extend w scope facts hw := hP w _ (by simp) (by simp) hw
  record w _ _ hw := hP w _ rfl rfl hw

namespace Agree

variable {P : World σ → Prop} {x y : RunM σ α}

theorem eq (h : Agree P x y) {w : World σ} (hw : P w) : x.run w = y.run w := by
  obtain ⟨ha, hs, -⟩ := h w w ⟨rfl, hw⟩
  exact Prod.ext ha hs

theorem keeps (h : Agree P x y) {w : World σ} (hw : P w) : P (x.run w).2 := (h w w ⟨rfl, hw⟩).2.2

theorem of_eq (h : ∀ w, P w → x.run w = y.run w ∧ P (x.run w).2) : Agree P x y := by
  rintro v _ ⟨rfl, hv⟩
  obtain ⟨heq, hP⟩ := h v hv
  exact ⟨congrArg Prod.fst heq, congrArg Prod.snd heq, hP⟩

theorem pure (a : α) : Agree P (pure a) (pure a) := Related.pure a

theorem bind {f g : α → RunM σ β} (hx : Agree P x y) (hf : ∀ a, Agree P (f a) (g a)) :
    Agree P (x >>= f) (y >>= g) := Related.bind hx hf

/-- After reading the world one may use that it is in the invariant. -/
theorem getThen {f g : World σ → RunM σ α} (h : ∀ w, P w → Agree P (f w) (g w)) :
    Agree P (get >>= f) (get >>= g) := by
  apply Related.getThen
  rintro v _ ⟨rfl, hv⟩
  exact h v hv

theorem modifyThen {change : World σ → World σ} {f g : RunM σ α} (h : ∀ w, P w → P (change w))
    (hf : Agree P f g) : Agree P (modify change >>= fun _ => f) (modify change >>= fun _ => g) :=
  of_eq fun w hw => ⟨hf.eq (h w hw), hf.keeps (h w hw)⟩

end Agree

/-- Whatever world it runs in, the answer fits the condition. -/
def Answers (x : RunM σ α) (Q : α → Prop) : Prop := ∀ w, Q (x.run w).1

namespace Answers

variable {Q : α → Prop} {x : RunM σ β} {f : β → RunM σ α}

theorem pure {a : α} (h : Q a) : Answers (pure a : RunM σ α) Q := fun _ => h

theorem bind (hf : ∀ b, Answers (f b) Q) : Answers (x >>= f) Q := fun _ => hf _ _

theorem bindThat {R : β → Prop} (hx : Answers x R) (hf : ∀ b, R b → Answers (f b) Q) :
    Answers (x >>= f) Q := fun w => hf _ (hx w) _

end Answers

variable {host : Host σ} {P : World σ → Prop} {force force' : Forcing σ}

/-- A scope is read alike in related worlds, if they have the same tables. -/
theorem Scope.related_readWith {R : World σ → World σ → Prop}
    (htables : ∀ {v w}, R v w → ∀ i, w.table i = v.table i)
    (hforce : ∀ i, Related R (force i) (force' i)) (scope : Scope) (key : String) :
    Related R (scope.readWith force key) (scope.readWith force' key) := by
  induction scope with
  | nil => exact .pure _
  | cons layer rest ih =>
    cases layer with
    | fixed vars =>
      unfold readWith
      cases Dict.get? vars key with
      | some value => exact .pure _
      | none => exact ih
    | table index =>
      apply Related.getThen
      intro v w h
      rw [htables h]
      dsimp only
      cases Dict.get? (v.table index).futures key with
      | some future =>
        apply (hforce future).bind
        intro o
        cases o <;> exact .pure _
      | none =>
        cases Dict.get? (v.table index).vars key with
        | some value => exact .pure _
        | none => exact ih

theorem Scope.agree_readWith (hforce : ∀ i, Agree P (force i) (force' i)) (scope : Scope)
    (key : String) : Agree P (scope.readWith force key) (scope.readWith force' key) := by
  refine Scope.related_readWith ?_ hforce scope key
  rintro v _ ⟨rfl, -⟩ i
  rfl

namespace Command

/-- The names that a command may read. -/
def mentions : Command → List String
  | check conditions _ => conditions.flatMap fun text => Expr.compiledNames (Expr.compile text)
  | debug _ path => (path.map Expr.headName).toList
  | _ => []

/-- From related surroundings the command gets the same answers for the one task as
for the other, and it leaves related surroundings. -/
def Steady (host : Host σ) (H : σ → σ → Prop) (t t' : Task) : Command → Prop
  | program _ | shell _ => ∀ s s', H s s' →
    (∀ path, host.pathExists s path = host.pathExists s' path) ∧
    ∀ argv dir, (host.runProcess argv dir s).1 = (host.runProcess argv dir s').1 ∧
      H (host.runProcess argv dir s).2 (host.runProcess argv dir s').2
  | external name params => ∀ s s', H s s' →
    (host.runExternal t name params s).1 = (host.runExternal t' name params s').1 ∧
      H (host.runExternal t name params s).2 (host.runExternal t' name params s').2
  | _ => True

/-- The relation of worlds is kept by what commands do to the surroundings. -/
structure KeepsHost (R : World σ → World σ → Prop) (H : σ → σ → Prop) : Prop where
  host : ∀ {v w}, R v w → H v.host w.host
  setHost : ∀ {v w s s'}, R v w → H s s' → R { v with host := s } { w with host := s' }

/-- The relation of worlds is kept by what commands do to them besides reading. -/
structure Keeps (R : World σ → World σ → Prop) (H : σ → σ → Prop) (scope scope' : Scope) :
    Prop where
  host : ∀ {v w}, R v w → H v.host w.host
  setHost : ∀ {v w s s'}, R v w → H s s' → R { v with host := s } { w with host := s' }
  extend : ∀ {v w} (facts : Vars), R v w → R (v.extend scope facts) (w.extend scope' facts)

section

variable {R : World σ → World σ → Prop} {H : σ → σ → Prop} {scope scope' : Scope} {t t' : Task}

theorem related_execute (hR : KeepsHost R H) (params : ExecParams) (argv : List String)
    (shown : String)
    (hprocess : ∀ s s', H s s' → ∀ argv dir,
      (host.runProcess argv dir s).1 = (host.runProcess argv dir s').1 ∧
        H (host.runProcess argv dir s).2 (host.runProcess argv dir s').2) :
    Related R (execute host params argv shown) (execute host params argv shown) := by
  apply Related.getThen
  intro v w h
  obtain ⟨houtcome, hstate⟩ :=
    hprocess v.host w.host (hR.host h) argv (file host (params.chdir.getD "."))
  apply Related.setThen (hR.setHost h hstate)
  rw [houtcome]
  exact .pure _

theorem related_runChecks {look look' : String → RunM σ (Option Value)} (message : Option String)
    (conditions : List String)
    (hlook : ∀ key ∈ (check conditions message).mentions, Related R (look key) (look' key)) :
    Related R (runChecks look message conditions) (runChecks look' message conditions) := by
  induction conditions with
  | nil => exact .pure _
  | cons condition rest ih =>
    have hfirst : ∀ key ∈ Expr.compiledNames (Expr.compile condition),
        Related R (look key) (look' key) := fun key hkey =>
      hlook key (List.mem_flatMap.mpr ⟨condition, List.mem_cons_self, hkey⟩)
    have hrest : ∀ key ∈ (check rest message).mentions, Related R (look key) (look' key) := by
      intro key hkey
      obtain ⟨text, htext, hkey⟩ := List.mem_flatMap.mp hkey
      exact hlook key (List.mem_flatMap.mpr ⟨text, List.mem_cons_of_mem _ htext, hkey⟩)
    apply (Expr.related_run (Expr.compile condition) hfirst).bind
    intro o
    cases o with
    | error e => exact .pure _
    | ok value =>
      by_cases h : value.truthy
      · simp only [if_pos h]
        exact ih hrest
      · simp only [if_neg h]
        exact .pure _

theorem related_runDebug {look look' : String → RunM σ (Option Value)}
    (message path : Option String)
    (hlook : ∀ key ∈ (debug message path).mentions, Related R (look key) (look' key)) :
    Related R (runDebug look message path) (runDebug look' message path) := by
  cases path with
  | none => cases message <;> exact .pure _
  | some path =>
    cases message with
    | some message => exact .pure _
    | none =>
      apply (Expr.related_resolve path (hlook _ (List.mem_singleton_self _))).bind
      intro o
      rcases o with e | v
      · cases e <;> exact .pure _
      · exact .pure _

theorem related_runSetFact (hR : Keeps R H scope scope') (facts : Vars) :
    Related R (runSetFact scope facts) (runSetFact scope' facts) := by
  unfold runSetFact
  cases Dict.get? facts Arguments.rawKey with
  | some raw => exact .pure _
  | none =>
    by_cases h : facts.isEmpty
    · simpa only [if_pos h] using Related.pure _
    · simp only [if_neg h]
      exact .modifyThen (hR.extend facts) (.pure _)

theorem skipped?_congr {s s' : σ} (h : ∀ path, host.pathExists s path = host.pathExists s' path)
    (params : ExecParams) : skipped? host s params = skipped? host s' params := by
  simp only [skipped?, h]

/-- Commands are related as their readings are, where the surroundings are steady and
facts are bound alike. -/
theorem related_runWith_of_host (hR : KeepsHost R H) (command : Command)
    (hsteady : command.Steady host H t t')
    (hread : ∀ key ∈ command.mentions,
      Related R (scope.readWith force key) (scope'.readWith force' key))
    (hfacts : ∀ facts, command = .setFact facts →
      Related R (runSetFact scope facts) (runSetFact scope' facts)) :
    Related R (command.runWith host force scope t) (command.runWith host force' scope' t') := by
  cases command with
  | program params =>
    apply Related.getThen
    intro v w h
    rw [skipped?_congr (hsteady _ _ (hR.host h)).1]
    cases skipped? host w.host params with
    | some result => exact .pure _
    | none =>
      cases programWords params with
      | error e => exact .pure _
      | ok words => exact related_execute hR params words _ fun s s' h => (hsteady s s' h).2
  | shell params =>
    apply Related.getThen
    intro v w h
    rw [skipped?_congr (hsteady _ _ (hR.host h)).1]
    cases skipped? host w.host params with
    | some result => exact .pure _
    | none =>
      cases commandLine params with
      | error e => exact .pure _
      | ok line => exact related_execute hR params _ line fun s s' h => (hsteady s s' h).2
  | check conditions message =>
    by_cases h : conditions.isEmpty
    · simpa only [runWith, if_pos h] using Related.pure _
    · simpa only [runWith, if_neg h] using related_runChecks message conditions hread
  | debug message path => exact related_runDebug message path hread
  | setFact facts => exact hfacts facts rfl
  | external name params =>
    apply Related.getThen
    intro v w h
    obtain ⟨houtcome, hstate⟩ := hsteady v.host w.host (hR.host h)
    apply Related.setThen (hR.setHost h hstate)
    rw [houtcome]
    exact .pure _

/-- Commands are related as their readings are, where the surroundings are steady. -/
theorem related_runWith (hR : Keeps R H scope scope') (command : Command)
    (hsteady : command.Steady host H t t')
    (hread : ∀ key ∈ command.mentions,
      Related R (scope.readWith force key) (scope'.readWith force' key)) :
    Related R (command.runWith host force scope t) (command.runWith host force' scope' t') :=
  related_runWith_of_host ⟨hR.host, hR.setHost⟩ command hsteady hread fun facts _ =>
    related_runSetFact hR facts

end

/-- In the same surroundings a command gets the same answers for two tasks, if the
external commands do not tell them apart. -/
theorem steady_of_external {t t' : Task}
    (h : ∀ name params s, host.runExternal t' name params s = host.runExternal t name params s)
    (command : Command) : command.Steady host Eq t t' := by
  cases command with
  | program | shell =>
    rintro s _ rfl
    exact ⟨fun _ => rfl, fun _ _ => ⟨rfl, rfl⟩⟩
  | external =>
    rintro s _ rfl
    rw [h]
    exact ⟨rfl, rfl⟩
  | _ => trivial

/-- A single run of a command compares with itself. -/
theorem steady_eq (host : Host σ) (t : Task) (command : Command) : command.Steady host Eq t t :=
  steady_of_external (fun _ _ _ => rfl) command

end Command

theorem KeptByCommands.keeps (hP : KeptByCommands P) (scope : Scope) :
    Command.Keeps (fun v w => v = w ∧ P v) Eq scope scope := by
  refine ⟨?_, ?_, ?_⟩
  · rintro v _ ⟨rfl, -⟩
    rfl
  · rintro v _ s _ ⟨rfl, hv⟩ rfl
    exact ⟨rfl, hP.setHost v s hv⟩
  · rintro v _ facts ⟨rfl, hv⟩
    exact ⟨rfl, hP.extend v scope facts hv⟩

theorem Command.agree_runWith (hP : KeptByCommands P) (hforce : ∀ i, Agree P (force i) (force' i))
    (scope : Scope) (task : Task) (command : Command) :
    Agree P (command.runWith host force scope task) (command.runWith host force' scope task) :=
  related_runWith (hP.keeps scope) command (steady_eq host task command)
    fun key _ => Scope.agree_readWith hforce scope key

/-- A relation of worlds that running a job keeps, registrations and readings apart. -/
structure KeptByJobs (R : World σ → World σ → Prop) : Prop where
  tables : ∀ {v w}, R v w → ∀ i, w.table i = v.table i
  command : ∀ scope : Scope, Command.Keeps R Eq scope scope
  record : ∀ {v w} (t : Task) (result : TaskResult), R v w →
    R (v.record t result) (w.record t result)

/-- A job does the same in related worlds, if it reads alike and its registrations keep
the relation. -/
theorem Job.related_runWith {R : World σ → World σ → Prop} (hR : KeptByJobs R)
    (hforce : ∀ i, Related R (force i) (force' i)) (job : Job)
    (hregister : ∀ table name later, job = .register table name later →
      ∀ {v w}, R v w → R (v.addFuture table name later).2 (w.addFuture table name later).2) :
    Related R (job.runWith host force) (job.runWith host force') := by
  have hread (scope : Scope) (key : String) :
      Related R (scope.readWith force key) (scope.readWith force' key) :=
    Scope.related_readWith hR.tables hforce scope key
  cases job with
  | read scope key => exact (hread scope key).bind fun _ => .pure _
  | evaluate scope text =>
    apply (Expr.related_run (Expr.compile text) fun k _ => hread scope k).bind
    intro o
    cases o <;> exact .pure _
  | register table name later =>
    exact .modifyThen (hregister table name later rfl) (.pure _)
  | command command scope task =>
    apply (Command.related_runWith (hR.command scope) command (Command.steady_eq host task command)
      fun key _ => hread scope key).bind
    intro o
    cases o with
    | ok result => exact .modifyThen (hR.record task result) (.pure _)
    | error e => exact .modifyThen (hR.record task _) (.pure _)
  | _ => exact .pure _

/-- Jobs agree as their readings do, where a registration keeps the invariant. -/
theorem Job.agree_runWith (hP : KeptByCommands P) (hforce : ∀ i, Agree P (force i) (force' i))
    (job : Job)
    (hregister : ∀ table name later, job = .register table name later →
      ∀ w, P w → P (w.addFuture table name later).2) :
    Agree P (job.runWith host force) (job.runWith host force') := by
  refine Job.related_runWith ⟨?_, hP.keeps, ?_⟩ hforce job ?_
  · rintro v _ ⟨rfl, -⟩ i
    rfl
  · rintro v _ t result ⟨rfl, hv⟩
    exact ⟨rfl, hP.record v t result hv⟩
  · rintro table name later rfl v _ ⟨rfl, hv⟩
    exact ⟨rfl, hregister table name later rfl v hv⟩

/-- Jobs agree in a world of the invariant, and leave it at most by registering. -/
theorem Job.run_eq (hP : AboutFutures P) (hforce : ∀ i, Agree P (force i) (force' i)) (job : Job)
    {w : World σ} (hw : P w) :
    (job.runWith host force).run w = (job.runWith host force').run w ∧
      (P ((job.runWith host force').run w).2 ∨ ∃ table name later,
        job = .register table name later ∧
        ((job.runWith host force').run w).2 = (w.addFuture table name later).2) := by
  by_cases hreg : ∃ table name later, job = .register table name later
  · obtain ⟨table, name, later, rfl⟩ := hreg
    exact ⟨rfl, .inr ⟨table, name, later, rfl, rfl⟩⟩
  · have hagree : Agree P (job.runWith host force) (job.runWith host force') :=
      job.agree_runWith hP.kept hforce fun table name later hj => absurd ⟨table, name, later, hj⟩ hreg
    exact ⟨hagree.eq hw, .inl (hagree.eq hw ▸ hagree.keeps hw)⟩

end PlaybookRunner
