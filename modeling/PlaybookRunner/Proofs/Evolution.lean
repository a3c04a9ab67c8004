import PlaybookRunner.Proofs.Forcing

/-!
# How the futures of a world evolve

Between two worlds of a run lie writes that touch no future, registrations, and
executions: a pending future runs, its job may bring about more of the same, and
then the future keeps the outcome. The executed futures of an evolution are those
that were not started before it and are afterwards, each of them once; a future
that has settled stays as it is, and so does one that is running.
-/

namespace PlaybookRunner

variable {σ α : Type}

/-- An outcome that the job can end with. -/
def Job.Yields (host : Host σ) (job : Job) (outcome : Except String TaskResult) : Prop :=
  ∃ (force : Forcing σ) (w : World σ), ((job.runWith host force).run w).1 = outcome

/-- What becomes of a future over a part of a run: it stays as it is, or it was
pending and keeps an outcome of its job. -/
inductive Progress.Leads (host : Host σ) : Progress → Progress → Prop
  | refl (p : Progress) : Leads host p p
  | settled {job : Job} {outcome : Except String TaskResult} (h : job.Yields host outcome) :
      Leads host (.pending job) (.ofOutcome outcome)

namespace World

/-- The job of a future has been taken up. -/
def Started (w : World σ) (i : Nat) : Prop :=
  ∃ f, w.futures[i]? = some f ∧ ∀ job, f.progress ≠ .pending job

/-- One world evolves into another while the listed futures are executed, in the
order in which they start. -/
inductive Evolves (host : Host σ) : World σ → List Nat → World σ → Prop
  | quiet {v w : World σ} (hfutures : w.futures = v.futures) (hexecuted : w.executed = v.executed) :
      Evolves host v [] w
  | register (w : World σ) (table : Nat) (name : String) (job : Job) :
      Evolves host w [] (w.addFuture table name job).2
  | execute {w v : World σ} {i : Nat} {f : Future} {job : Job} {run : List Nat}
      {outcome : Except String TaskResult} (hf : w.futures[i]? = some f)
      (hp : f.progress = .pending job) (hrun : Evolves host (w.start i) run v)
      (ho : job.Yields host outcome) : Evolves host w (i :: run) (v.settle i outcome)
  | trans {u v w : World σ} {first second : List Nat} (hfirst : Evolves host u first v)
      (hsecond : Evolves host v second w) : Evolves host u (first ++ second) w

/-- A world that the first can evolve into. -/
def Later (host : Host σ) (v w : World σ) : Prop := ∃ run, v.Evolves host run w

theorem started_setProgress {w : World σ} {i j : Nat} {p : Progress}
    (hp : ∀ job, p ≠ .pending job) :
    (w.setProgress i p).Started j ↔ w.Started j ∨ i = j ∧ (w.futures[j]?).isSome := by
  unfold Started
  rw [getElem?_setProgress]
  by_cases hij : i = j
  · cases hf : w.futures[j]? with
    | none => simp [hij]
    | some f => simpa [hij] using hp
  · simp [hij]

theorem started_start {w : World σ} {i j : Nat} :
    (w.start i).Started j ↔ w.Started j ∨ i = j ∧ (w.futures[j]?).isSome :=
  started_setProgress (by simp)

theorem started_settle {w : World σ} {i j : Nat} {outcome : Except String TaskResult} :
    (w.settle i outcome).Started j ↔ w.Started j ∨ i = j ∧ (w.futures[j]?).isSome :=
  started_setProgress (by cases outcome <;> simp [Progress.ofOutcome])

theorem started_addFuture {w : World σ} {table : Nat} {name : String} {job : Job} {j : Nat} :
    (w.addFuture table name job).2.Started j ↔ w.Started j := by
  change (∃ f, (w.futures.push _)[j]? = some f ∧ _) ↔ _
  unfold Started
  rw [Array.getElem?_push]
  by_cases hj : j = w.futures.size
  · simp [hj]
  · simp [hj]

/-- Every job that is pending fits the condition. -/
def AllPending (Q : Job → Prop) (w : World σ) : Prop :=
  ∀ (i : Nat) (f : Future) (job : Job), w.futures[i]? = some f → f.progress = .pending job → Q job

namespace AllPending

variable {Q : Job → Prop} {v w : World σ}

theorem of_futures (h : w.AllPending Q) (hv : v.futures = w.futures) : v.AllPending Q := by
  intro i f job hf hjob
  rw [hv] at hf
  exact h i f job hf hjob

theorem setProgress (h : w.AllPending Q) (i : Nat) {p : Progress}
    (hp : ∀ job, p ≠ .pending job) : (w.setProgress i p).AllPending Q := by
  intro j f job hf hjob
  rw [getElem?_setProgress] at hf
  split at hf
  · obtain ⟨g, -, rfl⟩ := Option.map_eq_some_iff.mp hf
    exact absurd hjob (hp job)
  · exact h j f job hf hjob

theorem addFuture (h : w.AllPending Q) {job : Job} (hjob : Q job) (table : Nat)
    (name : String) : (w.addFuture table name job).2.AllPending Q := by
  intro i f later hf hlater
  change (w.futures.push _)[i]? = some f at hf
  rw [Array.getElem?_push] at hf
  split at hf
  · cases hf
    cases hlater
    exact hjob
  · exact h i f later hf hlater

end AllPending

end World

variable {host : Host σ}

namespace Progress.Leads

theorem eq_of_started {p q : Progress} (h : p.Leads host q) (hp : ∀ job, p ≠ .pending job) :
    q = p := by
  cases h with
  | refl => rfl
  | settled => exact absurd rfl (hp _)

theorem trans {p q r : Progress} (hpq : p.Leads host q) (hqr : q.Leads host r) :
    p.Leads host r := by
  cases hpq with
  | refl => exact hqr
  | settled h =>
    have hr := hqr.eq_of_started fun job => by
      rename_i outcome
      cases outcome <;> simp [ofOutcome]
    exact hr ▸ .settled h

end Progress.Leads

namespace World.Evolves

variable {u v w : World σ} {run : List Nat} {i : Nat} {f : Future}

theorem executed_eq (h : v.Evolves host run w) : w.executed = v.executed + run.length := by
  induction h with
  | quiet _ hexecuted => exact hexecuted
  | register w table name job => rfl
  | @execute w v i _ _ run _ _ _ _ _ ih =>
    change v.executed = w.executed + (run.length + 1)
    change v.executed = w.executed + 1 + run.length at ih
    omega
  | trans _ _ ih ih' =>
    rw [List.length_append]
    omega

theorem leads (h : v.Evolves host run w) (hf : v.futures[i]? = some f) :
    ∃ g, w.futures[i]? = some g ∧ g.name = f.name ∧ f.progress.Leads host g.progress := by
  induction h generalizing f with
  | quiet hfutures _ => exact ⟨f, hfutures ▸ hf, rfl, .refl _⟩
  | register w table name job => exact ⟨f, getElem?_addFuture hf table name job, rfl, .refl _⟩
  | @execute w v k g job run outcome hg hp _ ho ih =>
    by_cases hk : k = i
    · subst hk
      have hfg : f = g := Option.some.inj (hf.symm.trans hg)
      subst hfg
      obtain ⟨r, hr, hname, -⟩ := ih (f := { f with progress := .running }) (by
        rw [getElem?_start, if_pos rfl, hf]
        rfl)
      refine ⟨{ r with progress := .ofOutcome outcome }, ?_, hname, hp ▸ .settled ho⟩
      rw [getElem?_settle, if_pos rfl, hr]
      rfl
    · obtain ⟨r, hr, hname, hleads⟩ := ih (f := f) (by rw [getElem?_start, if_neg hk, hf])
      exact ⟨r, by rw [getElem?_settle, if_neg hk, hr], hname, hleads⟩
  | trans _ _ ih ih' =>
    obtain ⟨g, hg, hname, hleads⟩ := ih hf
    obtain ⟨r, hr, hname', hleads'⟩ := ih' hg
    exact ⟨r, hr, hname'.trans hname, hleads.trans hleads'⟩

/-- A future that was taken up before stays as it is. -/
theorem getElem?_of_started (h : v.Evolves host run w) (hf : v.futures[i]? = some f)
    (hp : ∀ job, f.progress ≠ .pending job) : w.futures[i]? = some f := by
  obtain ⟨g, hg, hname, hleads⟩ := h.leads hf
  have hprogress := hleads.eq_of_started hp
  rw [hg]
  cases f
  cases g
  simp_all

theorem started (h : v.Evolves host run w) (hv : v.Started i) : w.Started i := by
  obtain ⟨f, hf, hp⟩ := hv
  exact ⟨f, h.getElem?_of_started hf hp, hp⟩

/-- Executed are the futures that the evolution took up. -/
theorem mem_iff (h : v.Evolves host run w) : i ∈ run ↔ ¬ v.Started i ∧ w.Started i := by
  induction h with
  | quiet hfutures _ => simp [Started, hfutures]
  | register w table name job => simp [started_addFuture]
  | @execute w v k g job run outcome hg hp hrun _ ih =>
    rw [List.mem_cons, ih, started_start, started_settle]
    by_cases hk : k = i
    · subst hk
      have hpending : ¬ w.Started k := by
        rintro ⟨f, hf, hf'⟩
        rw [hg] at hf
        cases hf
        exact hf' job hp
      have hstarted : (w.start k).Started k := started_start.mpr (.inr ⟨rfl, by simp [hg]⟩)
      simp [hpending, hrun.started hstarted]
    · have hk' : ¬ i = k := fun e => hk e.symm
      simp [hk, hk']
  | trans hfirst hsecond ih ih' =>
    have hmono := hfirst.started (i := i)
    have hmono' := hsecond.started (i := i)
    rw [List.mem_append, ih, ih']
    tauto

/-- No future is executed twice. -/
theorem nodup (h : v.Evolves host run w) : run.Nodup := by
  induction h with
  | quiet => exact .nil
  | register => exact .nil
  | @execute w v k g job run outcome hg hp hrun ho ih =>
    refine List.nodup_cons.mpr ⟨?_, ih⟩
    intro hmem
    exact (hrun.mem_iff.mp hmem).1 (started_start.mpr (.inr ⟨rfl, by simp [hg]⟩))
  | trans hfirst hsecond ih ih' =>
    refine List.nodup_append.mpr ⟨ih, ih', ?_⟩
    rintro i hi _ hj rfl
    exact (hsecond.mem_iff.mp hj).1 (hfirst.mem_iff.mp hi).2

end World.Evolves

namespace World.Later

variable {u v w : World σ}

theorem refl (w : World σ) : w.Later host w := ⟨[], .quiet rfl rfl⟩

theorem trans (h : u.Later host v) (h' : v.Later host w) : u.Later host w := by
  obtain ⟨first, hfirst⟩ := h
  obtain ⟨second, hsecond⟩ := h'
  exact ⟨first ++ second, hfirst.trans hsecond⟩

theorem aboutFutures (w : World σ) : AboutFutures (w.Later host) :=
  fun _ _ hf he h => h.trans ⟨[], .quiet hf he⟩

/-- A job evolves the world if the forcing of its readings does. -/
theorem runJob {inner : Forcing σ} (hinner : ∀ i (v : World σ), v.Later host ((inner i).run v).2)
    (job : Job) (w : World σ) : w.Later host ((job.runWith host inner).run w).2 := by
  have hforce (i : Nat) : Agree (w.Later host) (inner i) (inner i) :=
    .of_eq fun v hv => ⟨rfl, hv.trans (hinner i v)⟩
  have hagree : Agree (w.Later host) (job.runWith host inner) (job.runWith host inner) :=
    Job.agree_runWith (aboutFutures w).kept hforce job fun table name later _ v hv =>
      hv.trans ⟨[], .register v table name later⟩
  exact hagree.keeps (refl w)

theorem force (i : Nat) (w : World σ) : w.Later host ((Future.force host i).run w).2 := by
  refine Future.force_induction (motive := fun _ w p => w.Later host p.2) ?_ ?_ i w
  · exact fun _ w _ => refl w
  · intro inner hinner i w f job hf hp
    rw [Future.run_forceBy_pending hf hp]
    obtain ⟨run, hrun⟩ := runJob hinner job (w.start i)
    exact ⟨i :: run, .execute hf hp hrun ⟨inner, w.start i, rfl⟩⟩

/-- A pending future that is forced keeps an outcome of its job. -/
theorem force_settles {w : World σ} {i : Nat} {f : Future} {job : Job}
    (hf : w.futures[i]? = some f) (hp : f.progress = .pending job) :
    ∃ outcome, job.Yields host outcome ∧ ((Future.force host i).run w).2.futures[i]? =
      some { f with progress := .ofOutcome outcome } := by
  rw [Future.run_force_pending hf hp]
  refine ⟨_, ⟨Future.force host, w.start i, rfl⟩, ?_⟩
  have hrunning : (w.start i).futures[i]? = some { f with progress := .running } := by
    rw [getElem?_start, if_pos rfl, hf]
    rfl
  obtain ⟨run, hrun⟩ : (w.start i).Later host
      ((job.runWith host (Future.force host)).run (w.start i)).2 := runJob force job (w.start i)
  dsimp only
  rw [getElem?_settle, if_pos rfl, hrun.getElem?_of_started hrunning (by simp)]
  rfl

theorem agree_force (w : World σ) (i : Nat) :
    Agree (w.Later host) (Future.force host i) (Future.force host i) :=
  .of_eq fun v hv => ⟨rfl, hv.trans (force i v)⟩

end World.Later

end PlaybookRunner
