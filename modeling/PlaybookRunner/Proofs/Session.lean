import PlaybookRunner.Proofs.Evolution

/-!
# Sessions with futures

A session is a sequence of requests that one caller makes of the futures of a
world, each served to its end. Whatever the jobs are, every request ends, each
job is executed at most once, a settled future keeps its outcome, and a job that
reads its own future is refused.
-/

namespace PlaybookRunner

variable {σ : Type}

/-- What a caller asks of the scopes and futures of a world. -/
inductive Request
  /-- Registers a future in a table. -/
  | add (table : Nat) (name : String) (job : Job)
  /-- Starts a future, and does not wait for what it answers. -/
  | spawn (future : Nat)
  | get (future : Nat)
  /-- Settles the futures of a table, and asks for the first failure. -/
  | wait (table : Nat)
  | results (table : Nat)
  | read (scope : Scope) (key : String)
  | evaluate (scope : Scope) (text : String)

inductive Reply
  | done
  | outcome (o : Except Error TaskResult)
  | failure (cause : Option Error)
  | outcomes (os : List (String × Except Error TaskResult))
  | value (v : Option Value)
  | evaluated (v : Except ExprError Value)

/-- Forces by a given way the futures that a table holds now, in order. -/
def Future.outcomesWith (force : Forcing σ) (table : Nat) :
    RunM σ (List (String × Except Error TaskResult)) := do
  ((← get).futuresOf table).mapM fun (name, i) => return (name, ← force i)

namespace Request

/-- The jobs that a request can add. -/
def weight : Request → Nat
  | add _ _ job => job.weight
  | _ => 0

/-- The request registers nothing. -/
def Observes : Request → Prop
  | add .. => False
  | _ => True

def serve (host : Host σ) : Request → RunM σ Reply
  | add table name job => do
    modify fun w => (w.addFuture table name job).2
    return .done
  | spawn i => do
    let _ ← Future.force host i
    return .done
  | get i => return .outcome (← Future.force host i)
  | wait table => return .failure (← Future.wait host table)
  | results table => return .outcomes (← Future.results host table)
  | read scope key => return .value (← scope.read host key)
  | evaluate scope text => return .evaluated (← Expr.evalText (scope.read host) text)

/-- Serves a request with a given way to force. -/
def serveWith (force : Forcing σ) : Request → RunM σ Reply
  | add table name job => do
    modify fun w => (w.addFuture table name job).2
    return .done
  | spawn i => do
    let _ ← force i
    return .done
  | get i => return .outcome (← force i)
  | wait table => return .failure (Future.firstFailure (← Future.outcomesWith force table))
  | results table => return .outcomes (← Future.outcomesWith force table)
  | read scope key => return .value (← scope.readWith force key)
  | evaluate scope text => return .evaluated (← Expr.evalText (scope.readWith force) text)

theorem serveWith_force (host : Host σ) (r : Request) :
    r.serveWith (Future.force host) = r.serve host := by
  cases r <;> rfl

end Request

/-- Serves requests one after the other. -/
def session (host : Host σ) (requests : List Request) : RunM σ (List Reply) :=
  requests.mapM (Request.serve host)

section

variable {P : World σ → Prop} {force force' : Forcing σ} {host : Host σ}

theorem Request.agree_serveWith (hforce : ∀ i, Agree P (force i) (force' i)) (r : Request)
    (hadd : ∀ table name job, r = .add table name job →
      ∀ w, P w → P (w.addFuture table name job).2) :
    Agree P (r.serveWith force) (r.serveWith force') := by
  have houtcomes (table : Nat) :
      Agree P (Future.outcomesWith force table) (Future.outcomesWith force' table) :=
    .getThen fun w _ => Related.mapM fun (_, i) _ => (hforce i).bind fun _ => .pure _
  cases r with
  | add table name job => exact .modifyThen (hadd table name job rfl) (.pure _)
  | spawn i => exact (hforce i).bind fun _ => .pure _
  | get i => exact (hforce i).bind fun _ => .pure _
  | wait table => exact (houtcomes table).bind fun _ => .pure _
  | results table => exact (houtcomes table).bind fun _ => .pure _
  | read scope key => exact (Scope.agree_readWith hforce scope key).bind fun _ => .pure _
  | evaluate scope text =>
    exact (Expr.related_run (Expr.compile text) fun k _ =>
      Scope.agree_readWith hforce scope k).bind fun _ => .pure _

theorem Request.later_serve (r : Request) (w : World σ) :
    w.Later host ((r.serve host).run w).2 := by
  rw [← serveWith_force]
  apply (r.agree_serveWith (World.Later.agree_force w) ?_).keeps (.refl w)
  exact fun table name job _ v hv => hv.trans ⟨[], .register v table name job⟩

theorem later_session (requests : List Request) (w : World σ) :
    w.Later host ((session host requests).run w).2 := by
  have hagree : Agree (w.Later host) (session host requests) (session host requests) :=
    Related.mapM fun r _ => Agree.of_eq fun v hv => ⟨rfl, hv.trans (r.later_serve v)⟩
  exact hagree.keeps (.refl w)

theorem Request.run_serveWith_iterate (leaf : Forcing σ) (r : Request) {n : Nat} {w : World σ}
    (hn : w.pendingWeight + r.weight < n) :
    (r.serveWith ((Future.forceBy host)^[n] leaf)).run w = (r.serve host).run w ∧
      ((r.serve host).run w).2.pendingWeight ≤ w.pendingWeight + r.weight := by
  by_cases hadd : ∃ table name job, r = .add table name job
  · obtain ⟨table, name, job, rfl⟩ := hadd
    refine ⟨rfl, ?_⟩
    exact Nat.le_of_eq (World.pendingWeight_addFuture table name job w)
  · have hagree (m : Nat) : Agree (fun v => v.pendingWeight < m) (r.serve host)
        (r.serveWith ((Future.forceBy host)^[m] leaf)) := by
      rw [← serveWith_force]
      exact r.agree_serveWith (Future.agree_force_iterate leaf m) fun table name job hr =>
        absurd ⟨table, name, job, hr⟩ hadd
    refine ⟨((hagree n).eq (by omega)).symm, ?_⟩
    have hle := (hagree (w.pendingWeight + 1)).keeps (Nat.lt_succ_self _)
    omega

/-- Levels of forcing that are deeper than the jobs at hand are never reached. -/
theorem run_session_iterate (leaf : Forcing σ) (requests : List Request) {n : Nat} {w : World σ}
    (hn : w.pendingWeight + (requests.map Request.weight).sum < n) :
    (requests.mapM (Request.serveWith ((Future.forceBy host)^[n] leaf))).run w =
      (session host requests).run w := by
  unfold session
  induction requests generalizing w with
  | nil => rfl
  | cons r rest ih =>
    rw [List.map_cons, List.sum_cons] at hn
    obtain ⟨hr, hle⟩ : (r.serveWith ((Future.forceBy host)^[n] leaf)).run w = (r.serve host).run w ∧
        ((r.serve host).run w).2.pendingWeight ≤ w.pendingWeight + r.weight :=
      r.run_serveWith_iterate leaf (by omega)
    have hrest : (rest.mapM (Request.serveWith ((Future.forceBy host)^[n] leaf))).run
        ((r.serve host).run w).2 = (rest.mapM (Request.serve host)).run ((r.serve host).run w).2 :=
      ih (by omega)
    rw [List.mapM_cons, List.mapM_cons, StateT.run_bind, StateT.run_bind, hr]
    change (rest.mapM (Request.serveWith ((Future.forceBy host)^[n] leaf)) >>= _).run _ =
      (rest.mapM (Request.serve host) >>= _).run _
    rw [StateT.run_bind, StateT.run_bind, hrest]

end

/-- The value of a variable that is bound to a future, from the outcome. -/
def Future.shown : Except Error TaskResult → Value
  | .ok result => result.toValue
  | .error e => (TaskResult.ofFailure e.message).toValue

theorem Scope.run_read_future {host : Host σ} {w : World σ} {table i : Nat} {rest : Scope}
    {key : String} (h : (w.futuresOf table).get? key = some i) :
    (Scope.read host (.table table :: rest) key).run w =
      (some (Future.shown ((Future.force host i).run w).1), ((Future.force host i).run w).2) := by
  have h' : Dict.get? (w.table table).futures key = some i := h
  simp only [read, readWith, StateT.run_bind, StateT.run_get, pure_bind, h']
  change StateT.run (match ((Future.force host i).run w).1 with
    | .ok result => _
    | .error e => _) _ = _
  cases ((Future.force host i).run w).1 <;> rfl

namespace Future

/-- Forcing that refuses one future, as to the job of that future. -/
def refusing (i : Nat) (name : String) (inner : Forcing σ) : Forcing σ := fun j =>
  if j = i then return .error (.futureFailed name "future reads its own result") else inner j

/-- The future of this name is running. -/
def Running (i : Nat) (name : String) (w : World σ) : Prop :=
  w.futures[i]? = some { name, progress := .running }

variable {host : Host σ} {i : Nat} {name : String}

theorem Running.start {w : World σ} (h : Running i name w) {j : Nat} {f : Future} {job : Job}
    (hf : w.futures[j]? = some f) (hp : f.progress = .pending job) :
    j ≠ i ∧ Running i name (w.start j) := by
  have hne : j ≠ i := by
    rintro rfl
    have hrunning : some f = some { name, progress := .running } := hf.symm.trans h
    cases hrunning
    cases hp
  exact ⟨hne, by rw [Running, World.getElem?_start, if_neg hne]; exact h⟩

theorem aboutFutures_running (n i : Nat) (name : String) :
    AboutFutures fun w : World σ => w.pendingWeight < n ∧ Running i name w := by
  intro v w hf he hv
  exact ⟨aboutFutures_pendingWeight_lt n v w hf he hv.1, by rw [Running, hf]; exact hv.2⟩

/-- While a future runs, refusing it at every level makes no difference. -/
theorem agree_refusing (leaf : Forcing σ) (n j : Nat) :
    Agree (fun w => w.pendingWeight < n ∧ Running i name w) (force host j)
      ((fun inner => refusing i name (forceBy host inner))^[n] leaf j) := by
  induction n generalizing j with
  | zero => exact .of_eq fun w hw => absurd hw.1 (Nat.not_lt_zero _)
  | succ n ih =>
    rw [Function.iterate_succ_apply', force_eq]
    by_cases hj : j = i
    · apply Agree.of_eq
      intro w hw
      have hanswer : w.answer? j =
          some (.error (.futureFailed name "future reads its own result")) := by
        have hrunning : w.futures[i]? = some { name, progress := .running } := hw.2
        simp only [World.answer?, hj, hrunning, answer?]
      rw [run_forceBy_of_answer? hanswer]
      exact ⟨by simp only [refusing, if_pos hj]; rfl, hw⟩
    · simp only [refusing, if_neg hj]
      refine agree_level ?_ ?_ ?_ ih j
      · exact aboutFutures_running n i name
      · intro w k f job hf hp hw
        exact ⟨pendingWeight_start_lt hf hp hw.1, (hw.2.start hf hp).2⟩
      · intro w k f job hf hp hw v o hv
        obtain ⟨hne, hstart⟩ := hw.2.start hf hp
        refine ⟨pendingWeight_settle_lt hf hp hw.1 (hv.imp_left And.left) o, ?_⟩
        rw [Running, World.getElem?_settle, if_neg hne]
        rcases hv with hv | ⟨table, name, later, -, rfl⟩
        · exact hv.2
        · exact World.getElem?_addFuture hstart table name later

end Future

/-- A session from any world, over any jobs: however the levels of forcing below
the jobs at hand behave, they are not reached; the executed futures are those
that were taken up, each once, while any future stays as it is or passes from
pending through running to an outcome of its job; what is settled is answered
from memory; and a job that comes to read its own future is refused. -/
theorem session_executes_once (host : Host σ) (requests : List Request) (w : World σ) :
    let v := ((session host requests).run w).2
    (∀ (leaf : Forcing σ) (n : Nat),
      w.pendingWeight + (requests.map Request.weight).sum < n →
        (requests.mapM (Request.serveWith ((Future.forceBy host)^[n] leaf))).run w =
          (session host requests).run w) ∧
    (∃ run, w.Evolves host run v ∧ run.Nodup ∧ v.executed = w.executed + run.length ∧
      ∀ i, i ∈ run ↔ ¬ w.Started i ∧ v.Started i) ∧
    (∀ (i : Nat) (f : Future), w.futures[i]? = some f →
      ∃ g, v.futures[i]? = some g ∧ g.name = f.name ∧ f.progress.Leads host g.progress) ∧
    (∀ (i : Nat) (f : Future) (o : Except String TaskResult), w.futures[i]? = some f →
      f.progress = .ofOutcome o →
        (Future.force host i).run v = (o.mapError (.futureFailed f.name), v) ∧
        ∀ table rest key, (v.futuresOf table).get? key = some i →
          (Scope.read host (.table table :: rest) key).run v =
            (some (Future.shown (o.mapError (.futureFailed f.name))), v)) ∧
    (∀ (i : Nat) (f : Future) (job : Job), v.futures[i]? = some f → f.progress = .pending job →
      let done := (job.runWith host (Future.force host)).run (v.start i)
      (Future.force host i).run v =
        (done.1.mapError (.futureFailed f.name), done.2.settle i done.1) ∧
      ∀ (leaf : Forcing σ) (n : Nat), v.pendingWeight < n →
        (job.runWith host ((fun inner => Future.refusing i f.name
          (Future.forceBy host inner))^[n] leaf)).run (v.start i) = done) := by
  intro v
  obtain ⟨run, hrun⟩ : w.Later host v := later_session requests w
  refine ⟨fun leaf n hn => run_session_iterate leaf requests hn,
    ⟨run, hrun, hrun.nodup, hrun.executed_eq, fun i => hrun.mem_iff⟩,
    fun i f hf => hrun.leads hf, fun i f o hf ho => ?_, fun i f job hf hp => ?_⟩
  · have hv : v.futures[i]? = some f := by
      apply hrun.getElem?_of_started hf
      intro job
      rw [ho]
      cases o <;> simp [Progress.ofOutcome]
    have hforce : (Future.force host i).run v = (o.mapError (.futureFailed f.name), v) :=
      Future.run_force_of_answer? (World.answer?_of_settled hv ho)
    refine ⟨hforce, fun table rest key hkey => ?_⟩
    rw [Scope.run_read_future hkey, hforce]
  · refine ⟨Future.run_force_pending hf hp, fun leaf n hn => ?_⟩
    have hlt := World.pendingWeight_start hf hp
    have hrunning : Future.Running i f.name (v.start i) := by
      rw [Future.Running, World.getElem?_start, if_pos rfl, hf]
      rfl
    have habout := Future.aboutFutures_running n i f.name (σ := σ)
    exact (Job.run_eq habout (Future.agree_refusing leaf n) job ⟨by omega, hrunning⟩).1.symm

end PlaybookRunner
