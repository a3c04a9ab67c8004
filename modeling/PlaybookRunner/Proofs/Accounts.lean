import PlaybookRunner.Proofs.Handlers
import PlaybookRunner.Proofs.Moves

/-!
# The accounts of a run

What a run records and what it reports are two accounts of the same results. A
command that runs at once is recorded and reported in one move; a deferred one is
recorded when it runs and reported when it is awaited. In between the accounts differ
by the results of the tasks that wait.
-/

namespace PlaybookRunner

variable {σ α β : Type}

open Transcript

namespace Transcript

/-- The results that events report, each with its task. -/
def reported (L : List Event) : List (Task × TaskResult) :=
  L.filterMap fun
    | .finishTask t (some result) => some (t, result)
    | _ => none

theorem reported_append (A B : List Event) : reported (A ++ B) = reported A ++ reported B :=
  List.filterMap_append

/-- A task is dispatched only where it is declared to run deferred. -/
theorem Brackets.dispatched_declared {p : Play} {turns : List Task} {L : List Event}
    (h : Brackets p turns L) (hturns : turns ⊆ p.declared) :
    ∀ t ∈ dispatched L, t ∈ p.declared ∧ t.isDeferred = true := by
  induction h with
  | nil => simp
  | skip _ ih => exact ih fun t ht => hturns (List.mem_cons_of_mem _ ht)
  | @report t turns inner rest result name args params _ hresult _ ihinner ihrest =>
    have hsubs : p.subturns t ⊆ p.declared := fun sub hsub =>
      Play.subtasks_subset_declared (Task.mem_of_mem_turns hsub)
    have hrest : turns ⊆ p.declared := fun u hu => hturns (List.mem_cons_of_mem _ hu)
    have hsplit : dispatched (.startTask t name args params ::
        (inner ++ .finishTask t result :: rest)) =
        dispatched inner ++ (dispatched [.finishTask t result] ++ dispatched rest) := by
      rw [← dispatched_append, ← dispatched_append]
      rfl
    intro u hu
    rw [hsplit, List.mem_append, List.mem_append] at hu
    rcases hu with hu | hu | hu
    · exact ihinner hsubs u hu
    · cases result with
      | none =>
        obtain rfl := List.mem_singleton.mp hu
        exact ⟨hturns List.mem_cons_self, hresult.1⟩
      | some result => cases hu
    · exact ihrest hrest u hu

theorem Awaited.dispatched_eq_nil {tasks : List Task} {L : List Event} (h : Awaited tasks L) :
    dispatched L = [] := by
  induction h with
  | nil => rfl
  | cons he _ ih =>
    obtain ⟨result, rfl⟩ := he
    exact ih

end Transcript

theorem PlayLog.Sound.dispatched_eq_nil {log : PlayLog} (h : log.Sound)
    (hnone : ∀ t ∈ log.play.declared, t.isDeferred = false) :
    dispatched (log.tasks ++ log.drained ++ log.handlers ++ log.late) = [] := by
  have hturns {ts : List Task} {L : List Event} (hts : ts ⊆ log.play.declared)
      (hL : Brackets log.play (ts.flatMap Task.turns) L) : dispatched L = [] := by
    refine List.eq_nil_iff_forall_not_mem.mpr fun t ht => ?_
    obtain ⟨hdeclared, hdeferred⟩ :=
      hL.dispatched_declared (fun u hu => hts (Task.mem_of_mem_turns hu)) t ht
    exact absurd (hdeferred.symm.trans (hnone t hdeclared)) Bool.noConfusion
  have htasks : log.play.tasks ⊆ log.play.declared := fun t ht =>
    List.mem_append_left _ (List.mem_append_left _ ht)
  have hhandlers : log.play.handlers ⊆ log.play.declared := fun t ht =>
    List.mem_append_left _ (List.mem_append_right _ ht)
  simp only [dispatched_append, hturns htasks h.tasks, h.drained.dispatched_eq_nil,
    hturns hhandlers h.handlers, h.late.dispatched_eq_nil, List.append_nil]

/-- A playbook none of whose tasks is declared to run deferred dispatches nothing. -/
theorem PlayLog.Complete.dispatched_eq_nil {plays : List Play} {L : List Event}
    (h : PlayLog.Complete plays L) (hnone : ∀ p ∈ plays, ∀ t ∈ p.declared, t.isDeferred = false) :
    dispatched L = [] := by
  have hparts {logs : List PlayLog} (hplays : logs.map PlayLog.play = plays)
      (hsound : ∀ log ∈ logs, log.Sound) :
      dispatched (PlayLog.mainPart logs) = [] ∧ dispatched (PlayLog.handlerPart logs) = [] := by
    have hlog : ∀ log ∈ logs,
        dispatched (log.tasks ++ log.drained ++ log.handlers ++ log.late) = [] := fun log hlog =>
      (hsound log hlog).dispatched_eq_nil (hnone _ (hplays ▸ List.mem_map_of_mem hlog))
    simp only [dispatched_append, List.append_eq_nil_iff] at hlog
    have hflat {part : PlayLog → List Event} (hpart : ∀ log ∈ logs, dispatched (part log) = []) :
        dispatched (logs.flatMap part) = [] := by
      rw [dispatched, List.filterMap_flatMap]
      exact List.flatMap_eq_nil_iff.mpr hpart
    have hmain : dispatched (PlayLog.mainPart logs) =
        dispatched (logs.flatMap PlayLog.tasks) ++ dispatched (logs.flatMap PlayLog.drained) :=
      dispatched_append (.startTasks :: logs.flatMap PlayLog.tasks) _
    refine ⟨?_, hflat fun log h => ?_⟩
    · rw [hmain, hflat fun log h => (hlog log h).1.1.1, hflat fun log h => (hlog log h).1.1.2]
      rfl
    · rw [dispatched_append, (hlog log h).1.2, (hlog log h).2]
      rfl
  cases h with
  | plain hplays hsound _ =>
    rw [dispatched_append, (hparts hplays hsound).1]
    rfl
  | @handled logs hplays hsound =>
    have hsplit : dispatched (.startHandlers :: (PlayLog.handlerPart logs ++
        [.finishHandlers, .finishAll])) = dispatched (PlayLog.handlerPart logs) ++ [] :=
      dispatched_append (PlayLog.handlerPart logs) _
    rw [dispatched_append, hsplit, (hparts hplays hsound).1, (hparts hplays hsound).2]
    rfl

namespace RunState

variable {s v : RunState σ} {n : Nat} {waiting waiting' : List Deferred}

/-- The record in a book of results is that of the future of each task that waits. -/
structure Books (w : World σ) (book : Nat → TaskResult) (d : Deferred) : Prop where
  future_lt : d.future < w.futures.size
  result : ∀ r, w.answer? d.future = some (.ok r) → book d.future = r

/-- The accounts differ by the results of the tasks that wait. They agree in order as
long as nothing has been dispatched. -/
structure Balanced (s : RunState σ) (waiting : List Deferred) : Prop where
  entries : ∃ book : Nat → TaskResult, (∀ d ∈ waiting, Books s.world book d) ∧
    s.world.recorded.toList.Perm
      (reported s.events.toList ++ waiting.map fun d => (d.task, book d.future))
  direct : dispatched s.events.toList = [] →
    waiting = [] ∧ s.world.recorded.toList = reported s.events.toList

/-- The last reports have not been recorded, and they are of failures. -/
def Lags (s : RunState σ) : Prop :=
  ∃ rest, reported s.events.toList = s.world.recorded.toList ++ rest ∧
    ∀ e ∈ rest, e.2.failed = true

theorem Balanced.perm (h : s.Balanced waiting) (hw : waiting.Perm waiting') :
    s.Balanced waiting' := by
  obtain ⟨⟨book, hbook, hperm⟩, hdirect⟩ := h
  refine ⟨⟨book, fun d hd => hbook d (hw.mem_iff.mpr hd), ?_⟩, fun hnone => ?_⟩
  · exact hperm.trans ((hw.map _).append_left _)
  · obtain ⟨rfl, hrecorded⟩ := hdirect hnone
    exact ⟨hw.symm.eq_nil, hrecorded⟩

theorem Balanced.lags (h : s.Balanced waiting) (hnone : dispatched s.events.toList = []) :
    s.Lags := ⟨[], by rw [(h.direct hnone).2, List.append_nil], by simp⟩

theorem reported_push (L : Array Event) (e : Event) :
    reported (L.push e).toList = reported L.toList ++ reported [e] := by
  rw [Array.toList_push, reported_append]

theorem dispatched_push (L : Array Event) (e : Event) :
    dispatched (L.push e).toList = dispatched L.toList ++ dispatched [e] := by
  rw [Array.toList_push, dispatched_append]

theorem deferred_report (t : Task) (result : TaskResult) (s : RunState σ) :
    (s.report t result).current.deferred = s.current.deferred := by
  unfold report
  dsimp only
  split <;> rfl

/-- What is neither recorded nor reported leaves the accounts as they are. -/
theorem Balanced.quiet (h : s.Balanced waiting) (hfutures : v.world.futures = s.world.futures)
    (hrecorded : v.world.recorded = s.world.recorded)
    (hreported : reported v.events.toList = reported s.events.toList)
    (hdispatched : dispatched v.events.toList = dispatched s.events.toList) :
    v.Balanced waiting := by
  obtain ⟨⟨book, hbook, hperm⟩, hdirect⟩ := h
  have hanswer (i : Nat) : v.world.answer? i = s.world.answer? i := by
    rw [World.answer?, World.answer?, hfutures]
  refine ⟨⟨book, fun d hd => ⟨hfutures ▸ (hbook d hd).future_lt, fun r hr => ?_⟩, ?_⟩,
    fun hnone => ?_⟩
  · exact (hbook d hd).result r ((hanswer _).symm.trans hr)
  · rw [hrecorded, hreported]
    exact hperm
  · rw [hrecorded, hreported]
    exact hdirect (hdispatched ▸ hnone)

theorem Balanced.tell (h : s.Balanced waiting) {e : Event}
    (he : ∀ t result, e ≠ .finishTask t result) : (s.push e).Balanced waiting := by
  have hsilent : reported [e] = [] ∧ dispatched [e] = [] := by
    cases e with
    | finishTask t result => exact absurd rfl (he t result)
    | _ => exact ⟨rfl, rfl⟩
  refine h.quiet rfl rfl ?_ ?_
  · exact (reported_push _ _).trans (by rw [hsilent.1, List.append_nil])
  · exact (dispatched_push _ _).trans (by rw [hsilent.2, List.append_nil])

theorem Balanced.report (h : s.Balanced waiting) (t : Task) (result : TaskResult) :
    (s.report t result).Balanced waiting := by
  obtain ⟨⟨book, hbook, hperm⟩, hdirect⟩ := h
  have hrecorded : (s.report t result).world.recorded.toList =
      s.world.recorded.toList ++ [(t, result)] := Array.toList_push
  have hreported : reported (s.report t result).events.toList =
      reported s.events.toList ++ [(t, result)] := reported_push _ _
  refine ⟨⟨book, fun d hd => ⟨(hbook d hd).future_lt, (hbook d hd).result⟩, ?_⟩, fun hnone => ?_⟩
  · rw [hrecorded, hreported, List.append_assoc]
    exact (hperm.append_right _).trans
      (by rw [List.append_assoc]; exact List.perm_append_comm.append_left _)
  · rw [RunState.report, dispatched_push] at hnone
    obtain ⟨hwaiting, hsame⟩ := hdirect (List.append_eq_nil_iff.mp hnone).1
    exact ⟨hwaiting, by rw [hrecorded, hreported, hsame]⟩

/-- A dispatched task waits with the result that has been recorded. -/
theorem Balanced.dispatch (h : s.Balanced waiting) {d : Deferred} {result : TaskResult}
    (hd : s.Dispatches n d result v) : v.Balanced (waiting ++ [d]) := by
  obtain ⟨⟨book, hbook, hperm⟩, hdirect⟩ := h
  obtain ⟨name, outcome, hfutures, houtcome⟩ := hd.futures
  have hsize : v.world.futures.size = s.world.futures.size + 1 := by
    rw [hfutures, Array.size_push]
  have hrecorded : v.world.recorded.toList = s.world.recorded.toList ++ [(d.task, result)] := by
    rw [hd.recorded, Array.toList_push]
  have hreported : reported v.events.toList = reported s.events.toList := by
    rw [hd.events, reported_push]
    exact List.append_nil _
  refine ⟨⟨Function.update book d.future result, fun e he => ?_, ?_⟩, fun hnone => ?_⟩
  · rcases List.mem_append.mp he with he | he
    · have hlt : e.future < s.world.futures.size := (hbook e he).future_lt
      have hne : e.future ≠ d.future := by
        rw [hd.future]
        exact Nat.ne_of_lt hlt
      have hanswer : v.world.answer? e.future = s.world.answer? e.future := by
        rw [World.answer?, World.answer?, hfutures, Array.getElem?_push_lt hlt,
          Array.getElem?_eq_getElem hlt]
      refine ⟨by omega, fun r hr => ?_⟩
      rw [Function.update_of_ne hne]
      exact (hbook e he).result r (hanswer.symm.trans hr)
    · obtain rfl := List.mem_singleton.mp he
      refine ⟨by rw [hd.future]; omega, fun r hr => ?_⟩
      have hf : v.world.futures[e.future]? = some { name, progress := .ofOutcome outcome } := by
        rw [hfutures, hd.future, Array.getElem?_push_size]
      rw [World.answer?_of_settled hf rfl] at hr
      rw [Function.update_self]
      cases outcome with
      | error message => cases hr
      | ok r' =>
        cases hr
        exact (houtcome r rfl).symm
  · have hkept : waiting.map (fun e => (e.task, Function.update book d.future result e.future)) =
        waiting.map fun e => (e.task, book e.future) := by
      apply List.map_congr_left
      intro e he
      have hlt : e.future < s.world.futures.size := (hbook e he).future_lt
      rw [Function.update_of_ne]
      rw [hd.future]
      exact Nat.ne_of_lt hlt
    rw [hrecorded, hreported, List.map_append, hkept, ← List.append_assoc, List.map_singleton,
      Function.update_self]
    exact hperm.append_right _
  · rw [hd.events, dispatched_push] at hnone
    cases (List.append_eq_nil_iff.mp hnone).2

theorem Balanced.move (hm : s.Move n v) (h : s.Balanced (s.current.deferred ++ waiting)) :
    v.Balanced (v.current.deferred ++ waiting) := by
  cases hm with
  | work hw => exact h.quiet hw.futures hw.recorded rfl rfl
  | tell he => exact h.tell he
  | report t result =>
    rw [deferred_report]
    exact h.report t result
  | @dispatch _ d result hd =>
    rw [hd.current]
    apply (h.dispatch hd).perm
    rw [List.append_assoc, List.append_assoc]
    exact List.perm_append_comm.append_left _

theorem Balanced.moves (hm : s.Moves n v) (h : s.Balanced (s.current.deferred ++ waiting)) :
    v.Balanced (v.current.deferred ++ waiting) := by
  induction hm with
  | refl => exact h
  | tail _ hstep ih => exact ih.move hstep

/-- The reports of a failure lead the records by failed results. -/
theorem Fails.lags (hf : s.Fails v) (h : s.Balanced waiting)
    (hnone : dispatched v.events.toList = []) : v.Lags := by
  have hmore {u : RunState σ} (hu : u.Lags) (t : Task) (cause : Error) :
      (u.push (.finishTask t (some (TaskResult.ofFailure cause.message)))).Lags := by
    obtain ⟨rest, hrest, hfailed⟩ := hu
    refine ⟨rest ++ [(t, TaskResult.ofFailure cause.message)], ?_, ?_⟩
    · rw [← List.append_assoc]
      exact (reported_push _ _).trans (congrArg (· ++ _) hrest)
    · intro e he
      rcases List.mem_append.mp he with he | he
      · exact hfailed e he
      · obtain rfl := List.mem_singleton.mp he
        rfl
  have hearlier {u : RunState σ} {e : Event} (hu : dispatched (u.push e).events.toList = []) :
      dispatched u.events.toList = [] := by
    rw [push, dispatched_push] at hu
    exact (List.append_eq_nil_iff.mp hu).1
  induction hf with
  | turn t name args cause =>
    apply hmore
    exact (h.tell (by simp)).lags (hearlier hnone)
  | command t _ => exact (h.report t _).lags hnone
  | call _ t cause ih => exact hmore (ih (hearlier hnone)) t cause

/-- The report of an awaited task brings its entry into both accounts. -/
theorem Balanced.awaited {d : Deferred} (h : s.Balanced (d :: waiting)) {result : TaskResult}
    (hanswer : s.world.answer? d.future = some (.ok result)) :
    (s.afterAwait d.task result).Balanced waiting := by
  obtain ⟨⟨book, hbook, hperm⟩, hdirect⟩ := h
  have hresult : book d.future = result := (hbook d List.mem_cons_self).result result hanswer
  refine ⟨⟨book, fun e he => ?_, ?_⟩, fun hnone => ?_⟩
  · have hold := hbook e (List.mem_cons_of_mem d he)
    exact ⟨hold.future_lt, hold.result⟩
  · have hreported : reported (s.afterAwait d.task result).events.toList =
        reported s.events.toList ++ [(d.task, result)] := reported_push _ _
    rw [hreported, List.append_assoc]
    rwa [List.map_cons, hresult] at hperm
  · rw [RunState.afterAwait, dispatched_push] at hnone
    cases (hdirect (List.append_eq_nil_iff.mp hnone).1).1

end RunState

namespace Step

variable {x : Step σ α} {f : α → Step σ β} {s : RunState σ}

/-- How a part ends that keeps the accounts, with those who wait then. -/
inductive Accounted (waiting : α → List Deferred) : Except Stop α → RunState σ → Prop
  | done (a : α) {v : RunState σ} (hsettled : v.world.Settled) (h : v.Balanced (waiting a)) :
      Accounted waiting (.ok a) v
  | stopped (e : Stop) {v : RunState σ} (h : dispatched v.events.toList = [] → v.Lags) :
      Accounted waiting (.error e) v

theorem Ends.accounted {waiting : α → List Deferred} {waiting' : β → List Deferred}
    (hx : x.Ends s (Accounted waiting))
    (hf : ∀ a v, v.world.Settled → v.Balanced (waiting a) → (f a).Ends v (Accounted waiting')) :
    (x >>= f).Ends s (Accounted waiting') := by
  apply hx.bind
  · rintro a v ⟨_, hsettled, h⟩
    exact hf a v hsettled h
  · rintro e v hv
    cases hv with
    | stopped _ h => exact .stopped e h

end Step

namespace Runner

open Step RunState

variable {setup : Setup σ} {s : RunState σ} {n : Nat} {waiting : List Deferred}

/-- A part that makes moves keeps the accounts of the running play and the others. -/
theorem accounted_of_goes {x : Step σ α} (hx : Goes n s.current.table x)
    (hsettled : s.world.Settled) (hn : n ≤ s.world.tables.size)
    (h : s.Balanced (s.current.deferred ++ waiting)) :
    x.Ends s fun o v => Accounted (fun _ => v.current.deferred ++ waiting) o v := by
  have hready : s.Ready n s.current.table := ⟨hsettled, hn, rfl⟩
  apply (hx s hready).mono
  intro o v hv
  cases hv with
  | done a hv => exact .done a (hv.ready hready).settled (h.moves hv)
  | deep hv => exact .stopped .tooDeep (h.moves hv).lags
  | failed e hv hfails => exact .stopped (.failed e) (hfails.lags (h.moves hv))

theorem runPlay_accounted (p : Play) (hsettled : s.world.Settled) (h : s.Balanced waiting) :
    (runPlay setup p).Ends s (Accounted fun st => st.deferred ++ waiting) := by
  let started : RunState σ :=
    { s with
      world := (s.world.newTable p.vars).2
      current := { play := p, table := s.world.tables.size } }
  have hstarted : started.Balanced (started.current.deferred ++ waiting) := h.quiet rfl rfl rfl rfl
  have htasks := accounted_of_goes (n := 0) (goes_tasks setup p.tasks)
    (hsettled.of_futures (v := started.world) rfl) (Nat.zero_le _) hstarted
  apply Ends.inWorldThen
  apply Ends.modifyThen
  apply htasks.bind
  · rintro changed v ⟨_, hv, hbalanced⟩
    exact .done _ hv hbalanced
  · rintro e v hv
    cases hv with
    | stopped _ hlags => exact .stopped e hlags

/-- The plays run one after the other, and their deferred tasks wait. -/
theorem plays_accounted (plays : List Play) (hsettled : s.world.Settled) (h : s.Balanced waiting) :
    (plays.mapM (runPlay setup)).Ends s
      (Accounted fun sts => sts.flatMap PlayState.deferred ++ waiting) := by
  induction plays generalizing s waiting with
  | nil => exact .done [] hsettled h
  | cons p plays ih =>
    rw [List.mapM_cons]
    apply (runPlay_accounted p hsettled h).accounted
    intro st v hv hst
    apply (ih hv hst).accounted
    intro sts w hw hsts
    refine .done _ hw (hsts.perm ?_)
    rw [List.flatMap_cons, ← List.append_assoc]
    exact List.perm_append_comm.append_right _

theorem awaits_accounted (ds : List Deferred) (hsettled : s.world.Settled)
    (h : s.Balanced (ds ++ waiting)) :
    (ds.forM (await setup)).Ends s fun o v => Accounted (fun _ => waiting) o v ∧
      v.current.deferred = s.current.deferred := by
  induction ds generalizing s with
  | nil => exact ⟨.done () hsettled h, rfl⟩
  | cons d ds ih =>
    change (await setup d >>= fun _ => ds.forM (await setup)).Ends s _
    obtain ⟨answer, hanswer⟩ := hsettled.exists_answer d.future
    unfold Ends
    cases answer with
    | ok result =>
      have hkept : (s.afterAwait d.task result).current.deferred = s.current.deferred := by
        unfold afterAwait
        dsimp only
        split <;> rfl
      rw [run_bind_of_ok (run_await_ok hanswer), ← hkept]
      exact ih hsettled (h.awaited hanswer)
    | error e =>
      rw [run_bind_of_error (run_await_error hanswer)]
      -- A task that waits has been dispatched.
      refine ⟨.stopped _ fun hnone => ?_, rfl⟩
      rw [push, dispatched_push] at hnone
      cases (h.direct (List.append_eq_nil_iff.mp hnone).1).1

theorem drain_accounted (hsettled : s.world.Settled)
    (h : s.Balanced (s.current.deferred ++ waiting)) :
    (drain setup).Ends s fun o v => Accounted (fun _ => waiting) o v ∧ v.current.deferred = [] :=
  awaits_accounted (s := { s with current := { s.current with deferred := [] } })
    s.current.deferred hsettled (h.quiet rfl rfl rfl rfl)

theorem drainPlay_accounted (st : PlayState) (hsettled : s.world.Settled)
    (h : s.Balanced (st.deferred ++ waiting)) :
    (drainPlay setup st).Ends s (Accounted fun st' => st'.deferred ++ waiting) := by
  have hbalanced : ({ s with current := st } : RunState σ).Balanced (st.deferred ++ waiting) :=
    h.quiet rfl rfl rfl rfl
  apply Ends.modifyThen
  apply (drain_accounted (s := { s with current := st }) hsettled hbalanced).bind
  · rintro _ v ⟨⟨_, hv, hdrained⟩, hnone⟩
    refine .done _ hv ?_
    rwa [hnone]
  · rintro e v ⟨hv, -⟩
    cases hv with
    | stopped _ hlags => exact .stopped e hlags

theorem drains_accounted (sts : List PlayState) (hsettled : s.world.Settled)
    (h : s.Balanced (sts.flatMap PlayState.deferred ++ waiting)) :
    (sts.mapM (drainPlay setup)).Ends s
      (Accounted fun sts' => sts'.flatMap PlayState.deferred ++ waiting) := by
  induction sts generalizing s waiting with
  | nil => exact .done [] hsettled h
  | cons st sts ih =>
    rw [List.mapM_cons]
    rw [List.flatMap_cons, List.append_assoc] at h
    apply (drainPlay_accounted st hsettled h).accounted
    intro st' v hv hst
    have hlater : v.Balanced (sts.flatMap PlayState.deferred ++ (st'.deferred ++ waiting)) := by
      apply hst.perm
      rw [← List.append_assoc, ← List.append_assoc]
      exact List.perm_append_comm.append_right _
    apply (ih hv hlater).accounted
    intro sts' w hw hsts
    refine .done _ hw (hsts.perm ?_)
    rw [List.flatMap_cons, ← List.append_assoc]
    exact List.perm_append_comm.append_right _

theorem runHandlers_accounted (started : Bool) (st : PlayState) (hsettled : s.world.Settled)
    (h : s.Balanced (st.deferred ++ waiting)) :
    (runHandlers setup started st).Ends s (Accounted fun _ => waiting) := by
  have hbalanced : ({ s with current := st } : RunState σ).Balanced (st.deferred ++ waiting) :=
    h.quiet rfl rfl rfl rfl
  have hhandlers := accounted_of_goes (n := 0) (goes_handlers setup started st.play.handlers)
    (s := { s with current := st }) hsettled (Nat.zero_le _) hbalanced
  apply Ends.modifyThen
  apply hhandlers.bind
  · rintro started v ⟨_, hv, hafter⟩
    apply (drain_accounted hv hafter).bind
    · rintro _ w ⟨⟨_, hw, hdrained⟩, -⟩
      exact .done started hw hdrained
    · rintro e w ⟨hw, -⟩
      cases hw with
      | stopped _ hlags => exact .stopped e hlags
  · rintro e v hv
    cases hv with
    | stopped _ hlags => exact .stopped e hlags

theorem handlers_accounted (sts : List PlayState) (started : Bool) (hsettled : s.world.Settled)
    (h : s.Balanced (sts.flatMap PlayState.deferred)) :
    (sts.foldlM (runHandlers setup) started).Ends s (Accounted fun _ => []) := by
  induction sts generalizing s started with
  | nil => exact .done started hsettled h
  | cons st sts ih =>
    rw [List.foldlM_cons]
    rw [List.flatMap_cons] at h
    apply (runHandlers_accounted started st hsettled h).accounted
    exact fun started v hv hst => ih started hv hst

/-- Each phase keeps the accounts, and in the end no task waits. -/
theorem runPhases_accounted (plays : List Play) (hsettled : s.world.Settled) (h : s.Balanced []) :
    (runPhases setup plays).Ends s (Accounted fun _ => []) := by
  apply Ends.modifyThen
  apply (plays_accounted plays (s := s.push .startTasks) hsettled (h.tell (by simp))).accounted
  intro sts u hu hsts
  apply Ends.modifyThen
  apply (drains_accounted sts (s := u.push .finishTasks) hu (hsts.tell (by simp))).accounted
  intro sts' v hv hsts'
  rw [List.append_nil] at hsts'
  apply (handlers_accounted sts' false hv hsts').accounted
  intro started w hw hdone
  cases started with
  | false => exact .done () hw (hdone.tell (by simp))
  | true => exact .done () hw ((hdone.tell (by simp)).tell (by simp))

/-- A playbook none of whose tasks is declared to run deferred dispatches nothing. -/
theorem runPhases_dispatch_nothing {plays : List Play}
    (hnone : ∀ p ∈ plays, ∀ t ∈ p.declared, t.isDeferred = false) (world : World σ) :
    (runPhases setup plays).Ends (RunState.initial world) fun _ v =>
      dispatched v.events.toList = [] := by
  apply (runPhases_ends plays (RunState.initial world) (X := True) fun _ _ _ => trivial).mono
  rintro o v ⟨L, whole, hL, -, hwhole, hreaches⟩
  have hevents : v.events.toList = L := hL.events
  obtain ⟨rest, hrest⟩ := hreaches.begins
  have hsplit : dispatched L ++ dispatched rest = [] := by
    rw [← dispatched_append, hrest]
    exact hwhole.dispatched_eq_nil hnone
  rw [hevents]
  exact (List.append_eq_nil_iff.mp hsplit).1

end Runner

end PlaybookRunner
