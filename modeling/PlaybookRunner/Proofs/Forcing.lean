import Mathlib.Algebra.GroupWithZero.Nat
import Mathlib.Logic.Function.Iterate
import PlaybookRunner.Proofs.Reading

/-!
# Forcing without a bound

`Future.forceBy` is one level of forcing: it looks at the future and runs a
pending job, whose readings force by another way. Each level starts a pending
job, so the jobs that pending futures can still bring about bound the depth.
Hence `Future.force` is what every deep enough stack of levels does, whatever
lies below the stack, and it satisfies the equation of forcing without a bound.
-/

namespace PlaybookRunner

variable {σ : Type}

/-- How far a future has come when its job has ended. -/
def Progress.ofOutcome : Except String TaskResult → Progress
  | .ok result => .ready result
  | .error message => .failed message

theorem Progress.ofOutcome_ne_pending (o : Except String TaskResult) (job : Job) :
    Progress.ofOutcome o ≠ .pending job := by
  cases o <;> simp [ofOutcome]

/-- What a reading of a future answers without running a job. -/
def Future.answer? (f : Future) : Option (Except Error TaskResult) :=
  match f.progress with
  | .pending _ => none
  | .running => some (.error (.futureFailed f.name "future reads its own result"))
  | .ready result => some (.ok result)
  | .failed message => some (.error (.futureFailed f.name message))

namespace World

/-- What a reading of a future in a world answers without running a job. -/
def answer? (w : World σ) (i : Nat) : Option (Except Error TaskResult) :=
  match w.futures[i]? with
  | none => some (.error (.futureFailed "" "no such future"))
  | some f => f.answer?

theorem answered_or_pending (w : World σ) (i : Nat) :
    (∃ o, w.answer? i = some o) ∨
      ∃ f job, w.futures[i]? = some f ∧ f.progress = .pending job := by
  unfold answer?
  cases hf : w.futures[i]? with
  | none => exact .inl ⟨_, rfl⟩
  | some f =>
    cases hp : f.progress with
    | pending job => exact .inr ⟨f, job, rfl, hp⟩
    | running | ready result | failed message => simp [Future.answer?, hp]

theorem answer?_of_settled {w : World σ} {i : Nat} {f : Future} {o : Except String TaskResult}
    (hf : w.futures[i]? = some f) (ho : f.progress = .ofOutcome o) :
    w.answer? i = some (o.mapError (.futureFailed f.name)) := by
  simp only [answer?, hf, Future.answer?, ho]
  cases o <;> rfl

/-- A future begins to run its job. -/
def start (i : Nat) (w : World σ) : World σ :=
  { w.setProgress i .running with executed := w.executed + 1 }

/-- A future keeps the outcome of its job. -/
def settle (i : Nat) (outcome : Except String TaskResult) (w : World σ) : World σ :=
  w.setProgress i (.ofOutcome outcome)

theorem getElem?_setProgress (i j : Nat) (p : Progress) (w : World σ) :
    (w.setProgress i p).futures[j]? =
      if i = j then (w.futures[j]?).map fun f => { f with progress := p } else w.futures[j]? := by
  simp [setProgress, Array.getElem?_modify]

theorem getElem?_start (i j : Nat) (w : World σ) :
    (w.start i).futures[j]? =
      if i = j then (w.futures[j]?).map fun f => { f with progress := .running }
      else w.futures[j]? :=
  getElem?_setProgress i j .running w

theorem getElem?_settle (i j : Nat) (outcome : Except String TaskResult) (w : World σ) :
    (w.settle i outcome).futures[j]? =
      if i = j then (w.futures[j]?).map fun f => { f with progress := .ofOutcome outcome }
      else w.futures[j]? :=
  getElem?_setProgress i j _ w

theorem getElem?_addFuture {w : World σ} {i : Nat} {f : Future} (h : w.futures[i]? = some f)
    (table : Nat) (name : String) (job : Job) :
    (w.addFuture table name job).2.futures[i]? = some f := by
  have hlt : i < w.futures.size := (Array.getElem?_eq_some_iff.mp h).1
  change (w.futures.push _)[i]? = some f
  rw [Array.getElem?_push_lt hlt, ← h, Array.getElem?_eq_getElem hlt]

theorem pendingWeight_eq_sum (w : World σ) :
    w.pendingWeight = (w.futures.toList.map Future.weight).sum := by
  unfold pendingWeight
  induction w.futures.toList with
  | nil => rfl
  | cons f rest ih => rw [List.foldr_cons, ih, List.map_cons, List.sum_cons]

theorem pendingWeight_addFuture (table : Nat) (name : String) (job : Job) (w : World σ) :
    (w.addFuture table name job).2.pendingWeight = w.pendingWeight + job.weight := by
  simp [pendingWeight_eq_sum, addFuture, modifyTable, Future.weight]

theorem sum_weight_modify (change : Future → Future) {futures : List Future} {i : Nat} {f : Future}
    (hf : futures[i]? = some f) :
    ((futures.modify i change).map Future.weight).sum + f.weight =
      (futures.map Future.weight).sum + (change f).weight := by
  induction futures generalizing i with
  | nil => simp at hf
  | cons g rest ih =>
    cases i with
    | zero =>
      have hg : g = f := by simpa using hf
      simp only [List.modify_zero_cons, List.map_cons, List.sum_cons, hg]
      omega
    | succ i =>
      have hrest : rest[i]? = some f := by simpa using hf
      have := ih hrest
      simp only [List.modify_succ_cons, List.map_cons, List.sum_cons]
      omega

theorem pendingWeight_setProgress {w : World σ} {i : Nat} {f : Future} (p : Progress)
    (hf : w.futures[i]? = some f) :
    (w.setProgress i p).pendingWeight + f.weight =
      w.pendingWeight + ({ f with progress := p } : Future).weight := by
  rw [pendingWeight_eq_sum, pendingWeight_eq_sum]
  have hf' : w.futures.toList[i]? = some f := by simpa using hf
  simpa [setProgress] using sum_weight_modify (fun f => { f with progress := p }) hf'

theorem pendingWeight_setProgress_le {w : World σ} {i : Nat} {p : Progress}
    (hp : ∀ job, p ≠ .pending job) : (w.setProgress i p).pendingWeight ≤ w.pendingWeight := by
  cases hf : w.futures[i]? with
  | none =>
    have hsame : (w.setProgress i p).futures = w.futures := by
      apply Array.ext_getElem?
      intro j
      rw [getElem?_setProgress]
      split
      next h => rw [← h, hf]; rfl
      next => rfl
    apply Nat.le_of_eq
    unfold pendingWeight
    rw [hsame]
  | some f =>
    have hw := pendingWeight_setProgress p hf
    have hzero : ({ f with progress := p } : Future).weight = 0 := by
      cases p with
      | pending job => exact absurd rfl (hp job)
      | _ => rfl
    omega

theorem pendingWeight_settle_le (i : Nat) (outcome : Except String TaskResult) (w : World σ) :
    (w.settle i outcome).pendingWeight ≤ w.pendingWeight := by
  apply pendingWeight_setProgress_le
  intro job
  cases outcome <;> simp [Progress.ofOutcome]

theorem pendingWeight_start {w : World σ} {i : Nat} {f : Future} {job : Job}
    (hf : w.futures[i]? = some f) (hp : f.progress = .pending job) :
    (w.start i).pendingWeight + job.weight = w.pendingWeight := by
  have hw := pendingWeight_setProgress .running hf
  have hjob : f.weight = job.weight := by simp [Future.weight, hp]
  have hzero : ({ f with progress := .running } : Future).weight = 0 := rfl
  have hstart : (w.start i).pendingWeight = (w.setProgress i .running).pendingWeight := rfl
  omega

end World

theorem Job.weight_pos (job : Job) : 0 < job.weight := by
  cases job <;> simp [weight]

theorem aboutFutures_pendingWeight_lt (n : Nat) :
    AboutFutures fun w : World σ => w.pendingWeight < n := by
  intro v w hf _ hv
  unfold World.pendingWeight at *
  rwa [hf]

namespace Future

/-- One level of forcing: a pending job runs with another way to force. -/
def forceBy (host : Host σ) (inner : Forcing σ) : Forcing σ := fun i => do
  match (← get).futures[i]? with
  | none => return .error (.futureFailed "" "no such future")
  | some f =>
    match f.progress with
    | .ready result => return .ok result
    | .failed message => return .error (.futureFailed f.name message)
    | .running => return .error (.futureFailed f.name "future reads its own result")
    | .pending job =>
      modify (World.start i)
      let outcome ← job.runWith host inner
      modify (World.settle i outcome)
      return outcome.mapError (.futureFailed f.name)

variable {host : Host σ} {inner : Forcing σ} {w : World σ} {i : Nat} {f : Future}

theorem run_forceBy_of_answer? {o : Except Error TaskResult} (h : w.answer? i = some o) :
    (forceBy host inner i).run w = (o, w) := by
  simp only [forceBy, StateT.run_bind, StateT.run_get, pure_bind]
  unfold World.answer? at h
  cases hf : w.futures[i]? with
  | none =>
    rw [hf] at h
    cases h
    rfl
  | some f =>
    rw [hf] at h
    simp only [answer?] at h
    cases hp : f.progress with
    | pending job => simp [hp] at h
    | running | ready result | failed message =>
      rw [hp] at h
      cases h
      simp only [hp]
      rfl

theorem run_forceBy_pending {job : Job} (hf : w.futures[i]? = some f)
    (hp : f.progress = .pending job) :
    (forceBy host inner i).run w =
      let done := (job.runWith host inner).run (w.start i)
      (done.1.mapError (.futureFailed f.name), done.2.settle i done.1) := by
  simp only [forceBy, StateT.run_bind, StateT.run_get, pure_bind, hf, hp]
  rfl

theorem forceWithin_succ (host : Host σ) (n : Nat) :
    forceWithin host (n + 1) = forceBy host (forceWithin host n) := by
  funext i w
  change (forceWithin host (n + 1) i).run w = (forceBy host (forceWithin host n) i).run w
  simp only [forceWithin, forceBy, StateT.run_bind, StateT.run_get, pure_bind]
  cases hf : w.futures[i]? with
  | none => rfl
  | some f =>
    cases hp : f.progress with
    | pending job =>
      simp only [hp, StateT.run_bind, StateT.run_modify, pure_bind]
      congr 1
      funext done
      rcases done with ⟨o, v⟩
      cases o <;> rfl
    | running | ready result | failed message => simp only [hp]

theorem run_forceWithin_of_answer? {o : Except Error TaskResult} (n : Nat)
    (h : w.answer? i = some o) : (forceWithin host n i).run w = (o, w) := by
  cases n with
  | succ n => rw [forceWithin_succ, run_forceBy_of_answer? h]
  | zero =>
    rw [← show (forceBy host (forceWithin host 0) i).run w = (o, w) from run_forceBy_of_answer? h]
    simp only [forceWithin, forceBy, StateT.run_bind, StateT.run_get, pure_bind]
    unfold World.answer? at h
    cases hf : w.futures[i]? with
    | none => rfl
    | some f =>
      cases hp : f.progress with
      | pending job => simp [hf, answer?, hp] at h
      | running | ready result | failed message => simp only [hp]

/-- A level agrees in one invariant if the forcings below it agree in another,
which holds while a job runs. A job that registers a future may leave the inner
invariant, since it ends there. -/
theorem agree_level {P P' : World σ → Prop} {inner inner' : Forcing σ} (hP : AboutFutures P)
    (hstart : ∀ w i f job, w.futures[i]? = some f → f.progress = .pending job → P' w →
      P (w.start i))
    (hsettle : ∀ w i f job, w.futures[i]? = some f → f.progress = .pending job → P' w →
      ∀ v o, (P v ∨ ∃ table name later, job = .register table name later ∧
        v = ((w.start i).addFuture table name later).2) → P' (v.settle i o))
    (h : ∀ i, Agree P (inner i) (inner' i)) (i : Nat) :
    Agree P' (forceBy host inner i) (forceBy host inner' i) := by
  apply Agree.of_eq
  intro w hw
  rcases w.answered_or_pending i with ⟨o, ho⟩ | ⟨f, job, hf, hp⟩
  · rw [run_forceBy_of_answer? ho, run_forceBy_of_answer? ho]
    exact ⟨rfl, hw⟩
  · obtain ⟨heq, hend⟩ := Job.run_eq hP h job (hstart w i f job hf hp hw)
    rw [run_forceBy_pending hf hp, run_forceBy_pending hf hp, heq]
    exact ⟨rfl, hsettle w i f job hf hp hw _ _ hend⟩

theorem pendingWeight_start_lt {n : Nat} {job : Job} (hf : w.futures[i]? = some f)
    (hp : f.progress = .pending job) (hw : w.pendingWeight < n + 1) :
    (w.start i).pendingWeight < n := by
  have hstart := World.pendingWeight_start hf hp
  have hpos := job.weight_pos
  omega

/-- The future that a job registers weighs one less than that job. -/
theorem pendingWeight_settle_lt {n : Nat} {job : Job} {v : World σ}
    (hf : w.futures[i]? = some f) (hp : f.progress = .pending job) (hw : w.pendingWeight < n + 1)
    (hv : v.pendingWeight < n ∨ ∃ table name later, job = .register table name later ∧
      v = ((w.start i).addFuture table name later).2) (o : Except String TaskResult) :
    (v.settle i o).pendingWeight < n + 1 := by
  have hle := World.pendingWeight_settle_le i o v
  rcases hv with hlt | ⟨table, name, later, rfl, rfl⟩
  · omega
  · have hstart := World.pendingWeight_start hf hp
    have hadd := World.pendingWeight_addFuture table name later (w.start i)
    rw [Job.weight] at hstart
    omega

/-- A level agrees on worlds where one more job can be brought about. -/
theorem agree_forceBy {n : Nat} {inner inner' : Forcing σ}
    (h : ∀ i, Agree (fun w => w.pendingWeight < n) (inner i) (inner' i)) (i : Nat) :
    Agree (fun w => w.pendingWeight < n + 1) (forceBy host inner i) (forceBy host inner' i) :=
  agree_level (aboutFutures_pendingWeight_lt n)
    (fun _ _ _ _ hf hp hw => pendingWeight_start_lt hf hp hw)
    (fun _ _ _ _ hf hp hw _ o hv => pendingWeight_settle_lt hf hp hw hv o) h i

theorem agree_iterate (leaf leaf' : Forcing σ) (n i : Nat) :
    Agree (fun w => w.pendingWeight < n) ((forceBy host)^[n] leaf i)
      ((forceBy host)^[n] leaf' i) := by
  induction n generalizing i with
  | zero => exact .of_eq fun w hw => absurd hw (Nat.not_lt_zero _)
  | succ n ih =>
    rw [Function.iterate_succ_apply', Function.iterate_succ_apply']
    exact agree_forceBy ih i

theorem agree_forceWithin (leaf : Forcing σ) (n i : Nat) :
    Agree (fun w => w.pendingWeight < n + 1) (forceWithin host n i)
      ((forceBy host)^[n + 1] leaf i) := by
  induction n generalizing i with
  | zero =>
    apply Agree.of_eq
    intro w hw
    rcases w.answered_or_pending i with ⟨o, ho⟩ | ⟨f, job, hf, hp⟩
    · rw [Function.iterate_succ_apply', run_forceBy_of_answer? ho, run_forceWithin_of_answer? 0 ho]
      exact ⟨rfl, hw⟩
    · have hstart := World.pendingWeight_start hf hp
      have hpos := job.weight_pos
      omega
  | succ n ih =>
    rw [forceWithin_succ, Function.iterate_succ_apply']
    exact agree_forceBy ih i

/-- Whatever lies below enough levels, they do what forcing does. -/
theorem run_iterate (leaf : Forcing σ) {n : Nat} (hn : w.pendingWeight < n) (i : Nat) :
    ((forceBy host)^[n] leaf i).run w = (force host i).run w := by
  have hforce : (force host i).run w = (forceWithin host w.pendingWeight i).run w := rfl
  have hlt : w.pendingWeight < w.pendingWeight + 1 := Nat.lt_succ_self _
  obtain ⟨m, rfl⟩ := Nat.exists_eq_add_of_le (Nat.succ_le_of_lt hn)
  rw [Function.iterate_add_apply, hforce, (agree_forceWithin leaf _ i).eq hlt]
  exact (agree_iterate _ _ _ i).eq hlt

/-- Forcing keeps a relation of worlds with the same futures, if every level keeps it. -/
theorem related_force {R : World σ → World σ → Prop}
    (hfutures : ∀ {v w}, R v w → w.futures = v.futures)
    (hlevel : ∀ {inner : Forcing σ}, (∀ i, Related R (inner i) (inner i)) →
      ∀ i, Related R (forceBy host inner i) (forceBy host inner i)) (i : Nat) :
    Related R (force host i) (force host i) := by
  let leaf : Forcing σ := fun _ => pure (.error .yaml)
  have hlevels (n i : Nat) :
      Related R ((forceBy host)^[n] leaf i) ((forceBy host)^[n] leaf i) := by
    induction n generalizing i with
    | zero => exact .pure _
    | succ n ih =>
      rw [Function.iterate_succ_apply']
      exact hlevel ih i
  intro v w h
  have hweight : w.pendingWeight = v.pendingWeight := by
    rw [World.pendingWeight, World.pendingWeight, hfutures h]
  have hv : v.pendingWeight < v.pendingWeight + 1 := Nat.lt_succ_self _
  have hw : w.pendingWeight < v.pendingWeight + 1 := hweight ▸ hv
  rw [← run_iterate leaf hv i, ← run_iterate leaf hw i]
  exact hlevels _ i v w h

theorem agree_force_iterate (leaf : Forcing σ) (n i : Nat) :
    Agree (fun w => w.pendingWeight < n) (force host i) ((forceBy host)^[n] leaf i) := by
  apply Agree.of_eq
  intro w hw
  rw [← run_iterate leaf hw]
  exact ⟨rfl, (agree_iterate leaf leaf n i).keeps hw⟩

/-- Forcing is the one that forces by itself: it needs no bound. -/
theorem force_eq (host : Host σ) : force host = forceBy host (force host) := by
  funext i w
  have hlt : w.pendingWeight < w.pendingWeight + 1 := Nat.lt_succ_self _
  have hdeep : ∀ j, Agree (fun v => v.pendingWeight < w.pendingWeight) (force host j)
      ((forceBy host)^[w.pendingWeight] (force host) j) := agree_force_iterate (force host) _
  change (force host i).run w = (forceBy host (force host) i).run w
  rw [(agree_forceBy hdeep i).eq hlt, ← Function.iterate_succ_apply' (forceBy host),
    run_iterate _ hlt]

theorem run_force_of_answer? {o : Except Error TaskResult} (h : w.answer? i = some o) :
    (force host i).run w = (o, w) := by
  rw [force_eq, run_forceBy_of_answer? h]

theorem run_force_pending {job : Job} (hf : w.futures[i]? = some f)
    (hp : f.progress = .pending job) :
    (force host i).run w =
      let done := (job.runWith host (force host)).run (w.start i)
      (done.1.mapError (.futureFailed f.name), done.2.settle i done.1) := by
  rw [force_eq, run_forceBy_pending hf hp, ← force_eq]

/-- What holds of a reading that runs nothing, and of a level when it holds of
the forcing below, holds of forcing. -/
theorem force_induction {motive : Nat → World σ → Except Error TaskResult × World σ → Prop}
    (idle : ∀ i w o, motive i w (o, w))
    (level : ∀ inner : Forcing σ, (∀ i w, motive i w ((inner i).run w)) →
      ∀ i w f job, w.futures[i]? = some f → f.progress = .pending job →
        motive i w ((forceBy host inner i).run w)) (i : Nat) (w : World σ) :
    motive i w ((force host i).run w) := by
  have hlevels : ∀ n i w,
      motive i w (((forceBy host)^[n] (fun _ => pure (.error .yaml)) i).run w) := by
    intro n
    induction n with
    | zero => exact fun i w => idle i w _
    | succ n ih =>
      intro i w
      rw [Function.iterate_succ_apply']
      rcases w.answered_or_pending i with ⟨o, ho⟩ | ⟨f, job, hf, hp⟩
      · rw [run_forceBy_of_answer? ho]
        exact idle i w o
      · exact level _ ih i w f job hf hp
  rw [← run_iterate (fun _ => pure (.error .yaml)) (Nat.lt_succ_self w.pendingWeight) i]
  exact hlevels _ i w

end Future

end PlaybookRunner
