import PlaybookRunner.Proofs.Confluence
import PlaybookRunner.Proofs.Moves

/-!
# Waiting for a scope

To wait for a table is to force the futures that it holds at that moment, in the order of
their registration. All of them settle, and the answer is the failure of the first of them
that failed. A job may register further futures in the table while it runs; nobody waits
for these. Where no pending job does so, the table holds the same futures afterwards, and
nothing in it is left open.
-/

namespace PlaybookRunner

variable {σ : Type} {host : Host σ}

/-- The job registers a future in the table, itself or by a job that it registers. -/
def Job.RegistersIn (table : Nat) : Job → Prop
  | .register target _ job => target = table ∨ job.RegistersIn table
  | _ => False

/-- An invariant that speaks of the futures and of their names in tables only. -/
def AboutRegistry (P : World σ → Prop) : Prop :=
  ∀ v w : World σ, w.futures = v.futures → (∀ table, w.futuresOf table = v.futuresOf table) →
    P v → P w

theorem AboutRegistry.kept {P : World σ → Prop} (hP : AboutRegistry P) : KeptByCommands P where
  setHost w _ hw := hP w _ rfl (fun _ => rfl) hw
  extend w scope facts hw := by
    have hwrites : w.Writes (fun _ => True) (w.extend scope facts) :=
      .extend (fun _ _ => trivial) facts w
    exact hP w _ hwrites.futures hwrites.bound hw
  record w _ _ hw := hP w _ rfl (fun _ => rfl) hw

/-- Forcing keeps what the progress of a future keeps, and the registrations of pending
jobs. -/
theorem Future.force_keeps {P : World σ → Prop} (hP : AboutRegistry P)
    (hprogress : ∀ w i p, (∀ job, p ≠ .pending job) → P w → P (w.setProgress i p))
    (hregister : ∀ (w : World σ) (i : Nat) (f : Future) table name later, w.futures[i]? = some f →
      f.progress = .pending (.register table name later) → P w →
        ∀ v, P v → P (v.addFuture table name later).2)
    (i : Nat) {w : World σ} (hw : P w) : P ((Future.force host i).run w).2 := by
  refine Future.force_induction (motive := fun _ w r => P w → P r.2) ?_ ?_ i w hw
  · exact fun _ _ _ h => h
  · intro inner hinner i w f job hf hp hw
    have hstart : P (w.start i) :=
      hP (w.setProgress i .running) _ rfl (fun _ => rfl) (hprogress w i .running (by simp) hw)
    have hjob : Agree P (job.runWith host inner) (job.runWith host inner) := by
      refine Job.agree_runWith hP.kept (fun i => .of_eq fun v hv => ⟨rfl, hinner i v hv⟩) job ?_
      rintro table name later rfl
      exact hregister w i f table name later hf hp hw
    rw [Future.run_forceBy_pending hf hp]
    exact hprogress _ i _ (Progress.ofOutcome_ne_pending _) (hjob.keeps hstart)

namespace World

variable {v w u : World σ} {table : Nat}

/-- The future has been run, to a result or to a failure. -/
def HasSettled (w : World σ) (i : Nat) : Prop :=
  ∃ f o, w.futures[i]? = some f ∧ f.progress = .ofOutcome o

/-- The error of a future that failed. -/
def failure? (w : World σ) (i : Nat) : Option Error :=
  match w.answer? i with
  | some (.error e) => some e
  | _ => none

/-- No job is being run, and every name stands for a future that there is. -/
structure Idle (w : World σ) : Prop where
  still : ∀ (i : Nat) (f : Future), w.futures[i]? = some f → f.progress ≠ .running
  bound : ∀ table, ∀ e ∈ w.futuresOf table, e.2 < w.futures.size

/-- No pending job registers a future in the table. -/
def LeavesAlone (w : World σ) (table : Nat) : Prop :=
  w.AllPending fun job => ¬ job.RegistersIn table

/-- The names of tables stand for the futures they stood for, or for later ones. -/
structure Widens (w v : World σ) : Prop where
  size_le : w.futures.size ≤ v.futures.size
  bound : ∀ table, ∀ e ∈ v.futuresOf table,
    e ∈ w.futuresOf table ∨ w.futures.size ≤ e.2 ∧ e.2 < v.futures.size

theorem futuresOf_addFuture_of_ne {target : Nat} (h : target ≠ table) (name : String) (job : Job)
    (w : World σ) : (w.addFuture target name job).2.futuresOf table = w.futuresOf table :=
  congrArg Table.futures (table_modifyTable_of_ne h _ _)

theorem mem_futuresOf_addFuture {target : Nat} {name : String} {job : Job} {e : String × Nat}
    (h : e ∈ (w.addFuture target name job).2.futuresOf table) :
    e ∈ w.futuresOf table ∨ e.2 = w.futures.size := by
  by_cases htable : target = table
  · subst htable
    by_cases hlt : target < w.tables.size
    · have hsame : (w.addFuture target name job).2.futuresOf target =
          (w.futuresOf target).put name w.futures.size :=
        congrArg Table.futures (table_modifyTable_self hlt _)
      rw [hsame] at h
      rcases Dict.mem_put h with h | rfl
      · exact .inl h
      · exact .inr rfl
    · -- A table that there is not holds nothing.
      have hnone : (w.addFuture target name job).2.tables[target]? = none := by
        apply Array.getElem?_eq_none
        rw [addFuture]
        exact (size_modifyTable ..).symm ▸ Nat.le_of_not_lt hlt
      rw [futuresOf, table_eq, hnone] at h
      cases h
  · rw [futuresOf_addFuture_of_ne htable] at h
    exact .inl h

theorem size_addFuture (target : Nat) (name : String) (job : Job) (w : World σ) :
    (w.addFuture target name job).2.futures.size = w.futures.size + 1 := Array.size_push _

theorem size_setProgress (i : Nat) (p : Progress) (w : World σ) :
    (w.setProgress i p).futures.size = w.futures.size := Array.size_modify

namespace Widens

theorem refl (w : World σ) : w.Widens w := ⟨Nat.le_refl _, fun _ _ h => .inl h⟩

theorem aboutRegistry (w : World σ) : AboutRegistry w.Widens := by
  intro v u hfutures htables hv
  refine ⟨by rw [hfutures]; exact hv.size_le, fun table e he => ?_⟩
  rw [htables] at he
  rw [hfutures]
  exact hv.bound table e he

theorem setProgress (h : w.Widens v) (i : Nat) (p : Progress) : w.Widens (v.setProgress i p) := by
  refine ⟨by rw [size_setProgress]; exact h.size_le, fun table e he => ?_⟩
  rw [size_setProgress]
  exact h.bound table e he

theorem addFuture (h : w.Widens v) (target : Nat) (name : String) (job : Job) :
    w.Widens (v.addFuture target name job).2 := by
  have hsize := size_addFuture target name job v
  have hle := h.size_le
  refine ⟨by omega, fun table e he => ?_⟩
  rcases mem_futuresOf_addFuture he with he | he
  · rcases h.bound table e he with he | ⟨hge, hlt⟩
    · exact .inl he
    · exact .inr ⟨hge, by omega⟩
  · exact .inr ⟨by omega, by omega⟩

theorem force (h : w.Widens v) (i : Nat) : w.Widens ((Future.force host i).run v).2 :=
  Future.force_keeps (aboutRegistry w) (fun _ i p _ hv => hv.setProgress i p)
    (fun _ _ _ table name later _ _ _ _ hv => hv.addFuture table name later) i h

end Widens

theorem running_addFuture {target i : Nat} {name : String} {job : Job} {f : Future}
    (hf : (w.addFuture target name job).2.futures[i]? = some f) (hp : f.progress = .running) :
    w.futures[i]? = some f := by
  change (w.futures.push _)[i]? = some f at hf
  rw [Array.getElem?_push] at hf
  split at hf
  · cases hf
    cases hp
  · exact hf

/-- What runs after a part of a run did so before it. -/
theorem Evolves.running {run : List Nat} {i : Nat} {f : Future} (h : v.Evolves host run w)
    (hf : w.futures[i]? = some f) (hp : f.progress = .running) : v.futures[i]? = some f := by
  induction h with
  | quiet hfutures _ => rwa [hfutures] at hf
  | register w target name job => exact running_addFuture hf hp
  | @execute w v k g job run outcome hg _ _ _ ih =>
    rw [getElem?_settle] at hf
    by_cases hk : k = i
    · rw [if_pos hk] at hf
      obtain ⟨r, -, rfl⟩ := Option.map_eq_some_iff.mp hf
      cases outcome <;> cases hp
    · rw [if_neg hk] at hf
      have hstart := ih hf
      rwa [getElem?_start, if_neg hk] at hstart
  | trans _ _ ih ih' => exact ih (ih' hf)

namespace Idle

theorem widen (h : w.Idle) (hwidens : w.Widens v)
    (hrunning : ∀ (i : Nat) (f : Future), v.futures[i]? = some f → f.progress = .running →
      w.futures[i]? = some f) : v.Idle where
  still i f hf hp := h.still i f (hrunning i f hf hp) hp
  bound table e he := by
    rcases hwidens.bound table e he with he | ⟨-, hlt⟩
    · exact Nat.lt_of_lt_of_le (h.bound table e he) hwidens.size_le
    · exact hlt

theorem force (h : w.Idle) (i : Nat) : ((Future.force host i).run w).2.Idle := by
  obtain ⟨run, hrun⟩ : w.Later host ((Future.force host i).run w).2 := .force i w
  exact h.widen ((Widens.refl w).force i) fun _ _ hf hp => hrun.running hf hp

theorem agree_force (i : Nat) :
    Agree (World.Idle (σ := σ)) (Future.force host i) (Future.force host i) :=
  .of_eq fun _ hw => ⟨rfl, hw.force i⟩

theorem addFuture (h : w.Idle) (target : Nat) (name : String) (job : Job) :
    (w.addFuture target name job).2.Idle :=
  h.widen ((Widens.refl w).addFuture target name job) fun _ _ hf hp => running_addFuture hf hp

/-- Between the requests of a session no job is being run. -/
theorem session (h : w.Idle) (requests : List Request) :
    ((PlaybookRunner.session host requests).run w).2.Idle := by
  have hagree : Agree (World.Idle (σ := σ)) (PlaybookRunner.session host requests)
      (PlaybookRunner.session host requests) := by
    apply Related.mapM
    intro r _
    rw [← Request.serveWith_force]
    exact r.agree_serveWith agree_force fun table name job _ v hv => hv.addFuture table name job
  exact hagree.keeps h

end Idle

/-- The table holds the same futures, and still no pending job registers one in it. -/
structure SameEntries (w : World σ) (table : Nat) (v : World σ) : Prop where
  entries : v.futuresOf table = w.futuresOf table
  leaves : v.LeavesAlone table

theorem SameEntries.force (h : w.SameEntries table v) (i : Nat) :
    w.SameEntries table ((Future.force host i).run v).2 := by
  refine Future.force_keeps (fun v u hfutures htables hv => ?_)
    (fun v i p hp hv => ⟨hv.entries, hv.leaves.setProgress i hp⟩) ?_ i h
  · exact ⟨(htables table).trans hv.entries, hv.leaves.of_futures hfutures⟩
  · intro v i f target name later hf hp hv u hu
    have hjob : ¬ (target = table ∨ later.RegistersIn table) := hv.leaves i f _ hf hp
    rw [not_or] at hjob
    exact ⟨(futuresOf_addFuture_of_ne hjob.1 name later u).trans hu.entries,
      hu.leaves.addFuture hjob.2 target name⟩

/-! ### Forcing one future after the other -/

theorem run_forceAll_cons (e : String × Nat) (rest : Dict Nat) (w : World σ) :
    let first := (Future.force host e.2).run w
    (Future.forceAll host (e :: rest)).run w =
      ((e.1, first.1) :: ((Future.forceAll host rest).run first.2).1,
        ((Future.forceAll host rest).run first.2).2) := by
  unfold Future.forceAll
  rw [List.mapM_cons]
  rfl

theorem forceAll_keeps {P : World σ → Prop}
    (h : ∀ i v, P v → P ((Future.force host i).run v).2) (entries : Dict Nat) {w : World σ}
    (hw : P w) : P ((Future.forceAll host entries).run w).2 := by
  have hagree : Agree P (Future.forceAll host entries) (Future.forceAll host entries) :=
    Related.mapM fun e _ => Agree.bind (.of_eq fun v hv => ⟨rfl, h e.2 v hv⟩) fun _ => .pure _
  exact hagree.keeps hw

/-- A future that is not running settles when it is forced, and answers how. -/
theorem force_answers (host : Host σ) {i : Nat} {f : Future} (hf : w.futures[i]? = some f)
    (hp : f.progress ≠ .running) :
    ((Future.force host i).run w).2.HasSettled i ∧
      ((Future.force host i).run w).2.answer? i = some ((Future.force host i).run w).1 := by
  have hsettled (v : World σ) (g : Future) (o : Except String TaskResult)
      (hg : v.futures[i]? = some g) (ho : g.progress = .ofOutcome o) :
      v.HasSettled i ∧ v.answer? i = some (o.mapError (.futureFailed g.name)) :=
    ⟨⟨g, o, hg, ho⟩, answer?_of_settled hg ho⟩
  cases hprogress : f.progress with
  | running => exact absurd hprogress hp
  | ready result =>
    have h := hsettled w f (.ok result) hf hprogress
    rw [Future.run_force_of_answer? h.2]
    exact h
  | failed message =>
    have h := hsettled w f (.error message) hf hprogress
    rw [Future.run_force_of_answer? h.2]
    exact h
  | pending job =>
    have hrunning : (w.start i).futures[i]? = some { f with progress := .running } := by
      rw [getElem?_start, if_pos rfl, hf]
      rfl
    obtain ⟨run, hrun⟩ : (w.start i).Later host
        ((job.runWith host (Future.force host)).run (w.start i)).2 := Later.runJob Later.force job _
    rw [Future.run_force_pending hf hprogress]
    refine hsettled _ { f with progress := .ofOutcome _ } _ ?_ rfl
    rw [getElem?_settle, if_pos rfl, hrun.getElem?_of_started hrunning (by simp)]
    rfl

/-- A future that has settled stays as it is, and so does what it answers. -/
theorem Later.settled {i : Nat} (h : w.Later host v) (hi : w.HasSettled i) :
    v.HasSettled i ∧ v.answer? i = w.answer? i := by
  obtain ⟨f, o, hf, ho⟩ := hi
  obtain ⟨run, hrun⟩ := h
  have hv : v.futures[i]? = some f :=
    hrun.getElem?_of_started hf fun job => ho ▸ Progress.ofOutcome_ne_pending o job
  exact ⟨⟨f, o, hv, ho⟩, by simp only [World.answer?, hf, hv]⟩

/-- What becomes of an entry that is waited for, and what is answered for it. -/
structure Answered (v : World σ) (e : String × Nat) (p : String × Except Error TaskResult) :
    Prop where
  name : p.1 = e.1
  settled : v.HasSettled e.2
  outcome : v.answer? e.2 = some p.2

theorem answered_forceAll {entries : Dict Nat} (hw : w.Idle)
    (hentries : ∀ e ∈ entries, e.2 < w.futures.size) :
    List.Forall₂ ((Future.forceAll host entries).run w).2.Answered entries
      ((Future.forceAll host entries).run w).1 := by
  induction entries generalizing w with
  | nil => exact .nil
  | cons e rest ih =>
    obtain ⟨hlt, hrest⟩ := List.forall_mem_cons.mp hentries
    have hf := Array.getElem?_eq_getElem hlt
    have hwidens : w.Widens ((Future.force host e.2).run w).2 := (Widens.refl w).force e.2
    obtain ⟨hsettled, houtcome⟩ := force_answers host hf (hw.still _ _ hf)
    have hlater : ((Future.force host e.2).run w).2.Later host
        ((Future.forceAll host rest).run ((Future.force host e.2).run w).2).2 :=
      forceAll_keeps (fun i v hv => hv.trans (.force i v)) rest (.refl _)
    obtain ⟨hsettled', hsame⟩ := hlater.settled hsettled
    rw [run_forceAll_cons]
    refine .cons ⟨rfl, hsettled', hsame.trans houtcome⟩ (ih (hw.force e.2) fun e' he' => ?_)
    · exact Nat.lt_of_lt_of_le (hrest e' he') hwidens.size_le

theorem firstFailure_of_answered {entries : Dict Nat}
    {outcomes : List (String × Except Error TaskResult)}
    (h : List.Forall₂ v.Answered entries outcomes) :
    Future.firstFailure outcomes = entries.findSome? fun e => v.failure? e.2 := by
  induction h with
  | nil => rfl
  | @cons e p entries outcomes hfirst _ ih =>
    obtain ⟨name, o⟩ := p
    have houtcome : v.answer? e.2 = some o := hfirst.outcome
    cases o with
    | ok result => simp [Future.firstFailure, failure?, houtcome, ih]
    | error cause => simp [Future.firstFailure, failure?, houtcome]

/-- To wait for a table settles every future that it held before, and answers the failure
of the first of them that failed, in the order of their registration; so does asking for the
outcomes. What the table holds besides was registered meanwhile. Where no pending job
registers in the table, there is nothing besides, and all that it holds has settled. -/
theorem wait_settles_entries (host : Host σ) (w : World σ) (table : Nat) (hw : w.Idle) :
    let outcomes := ((Future.results host table).run w).1
    let v := ((Future.results host table).run w).2
    (Future.wait host table).run w = (Future.firstFailure outcomes, v) ∧ v.Idle ∧
    List.Forall₂ v.Answered (w.futuresOf table) outcomes ∧
    Future.firstFailure outcomes = (w.futuresOf table).findSome? (fun e => v.failure? e.2) ∧
    (∀ e ∈ v.futuresOf table, v.HasSettled e.2 ∨
      w.futures.size ≤ e.2 ∧ ¬ w.LeavesAlone table) ∧
    (w.LeavesAlone table → v.futuresOf table = w.futuresOf table ∧
      (∀ e ∈ v.futuresOf table, v.HasSettled e.2) ∧
      Future.firstFailure outcomes = (v.futuresOf table).findSome? fun e => v.failure? e.2) := by
  intro outcomes v
  have hanswered : List.Forall₂ v.Answered (w.futuresOf table) outcomes :=
    answered_forceAll hw (hw.bound table)
  have hfirst := firstFailure_of_answered hanswered
  have hsettled : ∀ e ∈ w.futuresOf table, v.HasSettled e.2 :=
    ((List.forall₂_and_left _ _).mp (hanswered.imp fun e p hp => ⟨hp.settled, hp⟩)).1
  have hsame (halone : w.LeavesAlone table) : v.futuresOf table = w.futuresOf table := by
    have hentries : w.SameEntries table v :=
      forceAll_keeps (fun i _ hv => hv.force i) _ ⟨rfl, halone⟩
    exact hentries.entries
  have hwidens : w.Widens v := forceAll_keeps (fun i _ hv => hv.force i) _ (.refl w)
  have hidle : v.Idle := forceAll_keeps (fun i _ hv => hv.force i) _ hw
  refine ⟨rfl, hidle, hanswered, hfirst, fun e he => ?_, fun halone => ⟨hsame halone, ?_, ?_⟩⟩
  · rcases hwidens.bound table e he with hold | ⟨hnew, -⟩
    · exact .inl (hsettled e hold)
    · by_cases halone : w.LeavesAlone table
      · exact .inl (hsettled e (hsame halone ▸ he))
      · exact .inr ⟨hnew, halone⟩
  · rw [hsame halone]
    exact hsettled
  · rw [hsame halone]
    exact hfirst

theorem idle_relay : relay.Idle where
  still i f hf hp := by
    have hi : i < 3 := (Array.getElem?_eq_some_iff.mp hf).1
    have hcases : i = 0 ∨ i = 1 ∨ i = 2 := by omega
    rcases hcases with rfl | rfl | rfl <;> cases hf <;> cases hp
  bound table e he := by
    cases table with
    | zero => revert e; decide
    | succ table => cases he

theorem wait_settles_entries_relay :
    relay.Idle ∧ relay.LeavesAlone 0 ∧
      (∀ e ∈ relay.futuresOf 0, ((Future.results bareHost 0).run relay).2.HasSettled e.2) ∧
      ((Future.wait bareHost 0).run relay).1.map Error.message =
        some "Future 'c' failed: Configuration error: gone" := by
  have halone : relay.LeavesAlone 0 := by
    intro i f job hf hp
    have hi : i < 3 := (Array.getElem?_eq_some_iff.mp hf).1
    have hcases : i = 0 ∨ i = 1 ∨ i = 2 := by omega
    rcases hcases with rfl | rfl | rfl <;> cases hf <;> cases hp <;> exact id
  obtain ⟨-, -, -, -, -, hsettles⟩ := wait_settles_entries bareHost relay 0 idle_relay
  obtain ⟨hsame, hsettled, -⟩ := hsettles halone
  exact ⟨idle_relay, halone, hsame ▸ hsettled, by decide +kernel⟩

/-- A future whose job registers another in the same table. -/
def growing : World Unit where
  host := ()
  tables := #[{ futures := [("f", 0)] }]
  futures := #[⟨"f", .pending (.register 0 "g" (.succeed {}))⟩]

theorem wait_misses_entries :
    growing.Idle ∧ ∃ e ∈ ((Future.wait bareHost 0).run growing).2.futuresOf 0,
      ¬ ((Future.wait bareHost 0).run growing).2.HasSettled e.2 := by
  have hentries : ((Future.wait bareHost 0).run growing).2.futuresOf 0 = [("f", 0), ("g", 1)] := by
    decide +kernel
  have hlast : (((Future.wait bareHost 0).run growing).2.answer? 1).isNone = true := by
    decide +kernel
  refine ⟨⟨fun i f hf hp => ?_, fun table e he => ?_⟩, ("g", 1), by simp [hentries], ?_⟩
  · have hi : i < 1 := (Array.getElem?_eq_some_iff.mp hf).1
    obtain rfl : i = 0 := by omega
    cases hf
    cases hp
  · cases table with
    | zero => revert e; decide
    | succ table => cases he
  · rintro ⟨f, o, hf, ho⟩
    rw [answer?_of_settled hf ho] at hlast
    cases hlast

end World

end PlaybookRunner
