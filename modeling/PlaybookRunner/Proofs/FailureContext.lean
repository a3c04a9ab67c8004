import Mathlib.Data.List.Induction
import PlaybookRunner.Proofs.RunErrors
import PlaybookRunner.Proofs.Unwinding

/-!
# The context of a failure

An error that ends a run carries one play and one name. To find the task that it speaks of
the events are read from the start: a task is outstanding, under the name with which it
started, until a result of it is reported. What reports next is the innermost task that is
open or, if none is open, the first of those that were dispatched. The error carries the
name of the task whose failure is reported first and the play that the task belongs to,
however many module calls lie around the task.
-/

namespace PlaybookRunner

variable {σ α β : Type} {host : Host σ} {setup : Setup σ} {p : Play} {plays : List Play}

open Transcript

/-- The tasks that have started and not reported a result, each with the name with which it
started: those that are open, innermost first, and those that run deferred, in the order of
their dispatch. -/
structure Outstanding where
  opened : List (Task × String) := []
  deferred : List (Task × String) := []

namespace Outstanding

/-- A task that starts is open. The innermost open task finishes, or goes on deferred if it
has no result; while none is open, the first deferred task finishes. -/
def after (o : Outstanding) : Event → Outstanding
  | .startTask t name _ _ => { o with opened := (t, name) :: o.opened }
  | .finishTask _ result =>
    match o.opened, result with
    | [], _ => { o with deferred := o.deferred.tail }
    | first :: rest, none => ⟨rest, o.deferred ++ [first]⟩
    | _ :: rest, some _ => { o with opened := rest }
  | _ => o

/-- What is outstanding after some more events. -/
def afterAll (o : Outstanding) (L : List Event) : Outstanding := L.foldl after o

/-- What is outstanding after some events. -/
def of (L : List Event) : Outstanding := afterAll {} L

theorem afterAll_append (o : Outstanding) (A B : List Event) :
    o.afterAll (A ++ B) = (o.afterAll A).afterAll B := List.foldl_append

theorem of_append (A B : List Event) : of (A ++ B) = (of A).afterAll B := afterAll_append ..

theorem mem_of_mem_after {o : Outstanding} {e : Event} {t : Task} {name : String}
    (h : (t, name) ∈ (o.after e).opened ++ (o.after e).deferred) :
    (t, name) ∈ o.opened ++ o.deferred ∨ ∃ args params, e = .startTask t name args params := by
  obtain ⟨opened, deferred⟩ := o
  cases e with
  | startTask other otherName args params =>
    rcases List.mem_cons.mp h with heq | h
    · cases heq
      exact .inr ⟨args, params, rfl⟩
    · exact .inl h
  | finishTask other result =>
    refine .inl ?_
    cases opened with
    | nil => exact List.mem_of_mem_tail h
    | cons first rest =>
      cases result with
      | none =>
        simp only [after, List.mem_append, List.mem_cons, List.not_mem_nil, or_false] at h ⊢
        tauto
      | some result => exact List.mem_cons_of_mem _ h
  | _ => exact .inl h

/-- What is outstanding has started. -/
theorem exists_startTask {L : List Event} {t : Task} {name : String}
    (h : (t, name) ∈ (of L).opened ++ (of L).deferred) :
    ∃ args params, .startTask t name args params ∈ L := by
  induction L using List.reverseRecOn with
  | nil => cases h
  | append_singleton L e ih =>
    rw [of_append] at h
    rcases mem_of_mem_after h with h | ⟨args, params, rfl⟩
    · obtain ⟨args, params, hmem⟩ := ih h
      exact ⟨args, params, List.mem_append_left _ hmem⟩
    · exact ⟨args, params, List.mem_append_right _ List.mem_cons_self⟩

end Outstanding

/-- The task lies inside these module calls, innermost first; the outermost of them, or the
task itself if there is none, is one of the given tasks. -/
def Play.Within (p : Play) (roots : List Task) : Task → List Task → Prop
  | t, [] => t ∈ roots
  | t, call :: calls => t ∈ p.subtasks call ∧ p.Within roots call calls

namespace Play.Within

variable {roots roots' : List Task} {t root : Task} {calls : List Task}

theorem mono (h : p.Within roots t calls) (hroots : roots ⊆ roots') : p.Within roots' t calls := by
  induction calls generalizing t with
  | nil => exact hroots h
  | cons call calls ih => exact ⟨h.1, ih h.2⟩

theorem inCall (h : p.Within (p.subtasks root) t calls) : p.Within [root] t (calls ++ [root]) := by
  induction calls generalizing t with
  | nil => exact ⟨h, List.mem_singleton_self root⟩
  | cons call calls ih => exact ⟨h.1, ih h.2⟩

end Play.Within

namespace Task

/-- The name of the task expands to this, in some scope and world. -/
def ExpandsTo (setup : Setup σ) (t : Task) (name : String) : Prop :=
  ∃ outer w, ((Expr.expandTemplate ((t.scope outer).read setup.host) t.name).run w).1 = .ok name

/-- The name with which a task is reported that fails for a cause: as it is declared, if the
condition or the name itself cannot be evaluated, and expanded otherwise. -/
inductive FailsUnder (setup : Setup σ) (t : Task) : String → Error → Prop
  | condition {condition : String} {cause : ExprError} (outer : Scope) (w : World σ)
      (hcondition : t.condition? = some condition)
      (h : ((holds ((t.scope outer).read setup.host) condition).run w).1 = .error cause) :
      FailsUnder setup t t.name (.expr cause)
  | name {cause : ExprError} (outer : Scope) (w : World σ)
      (h : ((Expr.expandTemplate ((t.scope outer).read setup.host) t.name).run w).1 =
        .error cause) : FailsUnder setup t t.name (.expr cause)
  | expanded {name : String} {cause : Error} (h : t.ExpandsTo setup name) :
      FailsUnder setup t name cause

theorem name_of_bindAction {registry : Registry} {t : Task} {name args : String} {vars : Vars}
    {prepared : Prepared} (h : bindAction registry p t name args vars = .ok prepared) :
    prepared.name = name := by
  unfold bindAction at h
  split at h
  · split at h
    · cases h
    · split at h <;> cases h
      rfl
  · split at h
    · cases h
    · split at h <;> cases h
      rfl

/-- A task goes by its expanded name as soon as there is one. -/
theorem names_prepare (setup : Setup σ) (p : Play) (t : Task) (outer : Scope) :
    Answers (t.prepare setup p (t.scope outer)) fun o =>
      (∀ u, o = .error u → t.FailsUnder setup u.name u.cause) ∧
        ∀ prepared, o = .ok prepared → t.ExpandsTo setup prepared.name := by
  unfold prepare
  refine Answers.bindThat (R := fun o => ∃ w,
    ((Expr.expandTemplate ((t.scope outer).read setup.host) t.name).run w).1 = o)
    (fun w => ⟨w, rfl⟩) ?_
  rintro (e | name) ⟨w, hname⟩
  · exact .pure ⟨by rintro _ ⟨⟩; exact .name outer w hname, nofun⟩
  have hexpands : t.ExpandsTo setup name := ⟨outer, w, hname⟩
  have hfails (args : String) (cause : Error) (u : Unprepared)
      (h : (.error { name, args, cause } : Except Unprepared Prepared) = .error u) :
      t.FailsUnder setup u.name u.cause := by
    cases h
    exact .expanded hexpands
  apply Answers.bind
  rintro (e | args)
  · exact .pure ⟨hfails _ _, nofun⟩
  apply Answers.bind
  rintro (e | vars)
  · exact .pure ⟨hfails _ _, nofun⟩
  dsimp only
  cases hbind : bindAction setup.registry p t name args vars with
  | error cause => exact .pure ⟨hfails _ _, nofun⟩
  | ok prepared =>
    refine .pure ⟨nofun, ?_⟩
    rintro _ ⟨⟩
    rwa [name_of_bindAction hbind]

theorem names_due (setup : Setup σ) (t : Task) (outer : Scope) :
    Answers (t.due setup outer) fun o =>
      ∀ e, o = .error e → t.FailsUnder setup t.name (.expr e) := by
  unfold due
  split
  · exact .pure nofun
  next condition hcondition => exact fun w e he => .condition outer w hcondition he

end Task

namespace Step

/-- Whatever state of the play the part starts in, it stays in the play, and the events and
the deferred tasks that it adds fit its outcome. -/
def Traces (p : Play) (x : Step σ α)
    (post : Except Stop α → List Event → List Deferred → Prop) : Prop :=
  ∀ s, s.current.play = p → x.Ends s fun o v => ∃ L ds,
    v.events.toList = s.events.toList ++ L ∧ v.current.play = p ∧
      v.current.deferred = s.current.deferred ++ ds ∧ post o L ds

namespace Traces

variable {x : Step σ α} {f : α → Step σ β}
  {Q Q' : Except Stop α → List Event → List Deferred → Prop}
  {R : Except Stop β → List Event → List Deferred → Prop}

theorem pure {a : α} (h : Q (.ok a) [] []) : Traces p (pure a : Step σ α) Q :=
  fun _ hs => ⟨[], [], (List.append_nil _).symm, hs, (List.append_nil _).symm, h⟩

theorem throw {e : Stop} (h : Q (.error e) [] []) : Traces p (throw e : Step σ α) Q :=
  fun _ hs => ⟨[], [], (List.append_nil _).symm, hs, (List.append_nil _).symm, h⟩

theorem mono (h : Traces p x Q) (hQ : ∀ o L ds, Q o L ds → Q' o L ds) : Traces p x Q' :=
  fun s hs => (h s hs).mono fun o _ ⟨L, ds, hL, hplay, hds, hpost⟩ =>
    ⟨L, ds, hL, hplay, hds, hQ o L ds hpost⟩

theorem bind (hx : Traces p x Q)
    (hok : ∀ a L ds, Q (.ok a) L ds →
      Traces p (f a) fun o L' ds' => R o (L ++ L') (ds ++ ds'))
    (herror : ∀ e L ds, Q (.error e) L ds → R (.error e) L ds) : Traces p (x >>= f) R := by
  intro s hs
  apply (hx s hs).bind
  · rintro a v ⟨L, ds, hL, hplay, hds, hpost⟩
    apply (hok a L ds hpost v hplay).mono
    rintro o w ⟨L', ds', hL', hplay', hds', hpost'⟩
    exact ⟨L ++ L', ds ++ ds', by rw [hL', hL, List.append_assoc], hplay',
      by rw [hds', hds, List.append_assoc], hpost'⟩
  · rintro e v ⟨L, ds, hL, hplay, hds, hpost⟩
    exact ⟨L, ds, hL, hplay, hds, herror e L ds hpost⟩

/-- A part that dispatches nothing defers nothing. -/
theorem of_adds (host : Host σ) {P : Except Stop α → List Event → Prop} (h : Adds host p x P)
    (hdispatched : ∀ o L, P o L → dispatched L = []) :
    Traces p x fun o L ds => P o L ∧ ds = [] := by
  intro s hs
  apply (h s hs).mono
  rintro o v ⟨L, hL, hpost⟩
  obtain ⟨ds, hds, htasks, -⟩ := hL.current.deferred
  have hnone : ds = [] := List.map_eq_nil_iff.mp (htasks.trans (hdispatched o L hpost))
  exact ⟨L, ds, hL.events, hL.current.play.trans hs, hds, hpost, hnone⟩

/-- A part that never stops and dispatches nothing, followed by another. -/
theorem next (host : Host σ) {A : List Event}
    (hx : Adds host p x fun o L => (∃ a, o = .ok a) ∧ L = A)
    (hA : dispatched A = []) (hf : ∀ a, Traces p (f a) fun o L ds => R o (A ++ L) ds) :
    Traces p (x >>= f) R := by
  apply (of_adds host hx fun _ _ h => h.2 ▸ hA).bind
  · rintro a _ _ ⟨⟨-, rfl⟩, rfl⟩
    exact hf a
  · rintro e _ _ ⟨⟨⟨a, ⟨⟩⟩, -⟩, -⟩

theorem inWorldThen {z : RunM σ α} {P : α → Prop} (hz : Answers z P)
    (hf : ∀ a, P a → Traces p (f a) R) : Traces p (inWorld z >>= f) R :=
  fun s hs => hf _ (hz s.world) _ hs

theorem getThen {g : RunState σ → Step σ α} (h : ∀ s, s.current.play = p → Traces p (g s) Q) :
    Traces p (get >>= g) Q := fun s hs => h s hs s hs

theorem outcome (h : Traces p x Q) :
    Traces p (Step.outcome x) fun o L ds => ∃ o', o = .ok o' ∧ Q o' L ds := by
  intro s hs
  obtain ⟨L, ds, hL, hplay, hds, hpost⟩ := h s hs
  exact ⟨L, ds, hL, hplay, hds, _, rfl, hpost⟩

end Traces

end Step

/-! ### Failures -/

/-- A command failed, at once or deferred. -/
def Error.ofCommand : Error → Bool
  | .command _ => true
  | .futureFailed .. => true
  | _ => false

theorem Error.FromTask.exitCode_task {e : Error} (h : e.FromTask) (play name : String) :
    (Error.task play name e).exitCode = if e.ofCommand then 2 else 3 := by
  cases h <;> rfl

theorem Error.FromTask.inTask_eq {e : Error} (h : e.FromTask) (play name : String) :
    e.inTask play name = .task play name e := by
  cases h <;> rfl

/-- A task that fails: the name with which it is reported, the cause, the result that it
reports, and the module calls around it, innermost first. -/
structure Failure where
  task : Task
  name : String
  cause : Error
  result : TaskResult
  calls : List Task := []

namespace Failure

/-- The error of the failure in a play. -/
def error (f : Failure) (p : Play) : Error := .task p.name f.name f.cause

/-- The reports of the failure in a play, those of the calls included. -/
def reports (f : Failure) (p : Play) : List Event :=
  unwinding f.task f.result f.calls (f.error p)

/-- The cause is that of a task, the name is as the cause demands, and the result tells of the
failure. -/
structure Sound (f : Failure) (setup : Setup σ) : Prop where
  cause : f.cause.FromTask
  named : f.task.FailsUnder setup f.name f.cause
  failed : f.result.failed = true

/-- The failed task is the one that reports next: it is open inside its calls, or nothing is
open and it was dispatched before all others that are outstanding. -/
inductive Next (f : Failure) (p : Play) : Outstanding → Prop
  | opened {around deferred : List (Task × String)} (haround : around.map Prod.fst = f.calls)
      (hwithin : p.Within (p.tasks ++ p.handlers) f.task f.calls) :
      f.Next p ⟨(f.task, f.name) :: around, deferred⟩
  | deferred {calls : List Task} {rest : List (Task × String)} (hcalls : f.calls = [])
      (hwithin : p.Within (p.tasks ++ p.handlers) f.task calls) :
      f.Next p ⟨[], (f.task, f.name) :: rest⟩

/-- The failure ends a run of tasks of the play with this error and these events: the error
carries the play and the name with which the failed task started, no context is added to the
cause, and the exit status says whether a command failed. -/
structure EndsRun (f : Failure) (setup : Setup σ) (p : Play) (e : Error) (events : List Event) :
    Prop where
  error : e = .task p.name f.name f.cause
  cause : f.cause.FromTask
  exitCode : e.exitCode = if f.cause.ofCommand then 2 else 3
  named : f.task.FailsUnder setup f.name f.cause
  failed : f.result.failed = true
  reports : ∃ before, events = before ++ f.reports p ++ [.ended (some e)] ∧
    f.Next p (.of before) ∧ ∃ args params, .startTask f.task f.name args params ∈ before

theorem Next.mem {f : Failure} {o : Outstanding} (h : f.Next p o) :
    (f.task, f.name) ∈ o.opened ++ o.deferred := by
  cases h <;> simp

end Failure

/-- A deferred task and the name with which it started. -/
def Deferred.key (d : Deferred) : Task × String := (d.task, d.name)

/-- The deferred task lies below the given tasks, and its name is expanded. -/
structure Deferred.Named (setup : Setup σ) (p : Play) (roots : List Task) (d : Deferred) :
    Prop where
  within : ∃ calls, p.Within roots d.task calls
  expands : d.task.ExpandsTo setup d.name

namespace Transcript

/-- All that the events start finishes or goes on deferred. -/
structure Settles (setup : Setup σ) (p : Play) (roots : List Task) (L : List Event)
    (ds : List Deferred) : Prop where
  outstanding : ∀ o : Outstanding,
    o.afterAll L = { o with deferred := o.deferred ++ ds.map Deferred.key }
  named : ∀ d ∈ ds, d.Named setup p roots

/-- The events end with the reports of a failure of a task that they opened. -/
def Stops (setup : Setup σ) (p : Play) (roots : List Task) (e : Error) (L : List Event) : Prop :=
  ∃ (f : Failure) (before : List Event), f.Sound setup ∧ e = f.error p ∧
    L = before ++ f.reports p ∧ p.Within roots f.task f.calls ∧
    ∀ o : Outstanding, ∃ around deferred, around.map Prod.fst = f.calls ∧
      o.afterAll before = ⟨(f.task, f.name) :: (around ++ o.opened), deferred⟩

/-- What some tasks of the play and all below them report and defer, up to an outcome. -/
structure Accounts (setup : Setup σ) (p : Play) (roots : List Task) (o : Except Stop α)
    (L : List Event) (ds : List Deferred) : Prop where
  settles : ∀ a, o = .ok a → Settles setup p roots L ds
  stops : ∀ e, o = .error (.failed e) → Stops setup p roots e L

variable {roots roots' : List Task} {A B L : List Event} {ds ds' : List Deferred}

theorem Settles.nil (setup : Setup σ) (p : Play) (roots : List Task) :
    Settles setup p roots [] [] where
  outstanding o := by simp [Outstanding.afterAll]
  named := nofun

theorem Settles.append (hA : Settles setup p roots A ds) (hB : Settles setup p roots B ds') :
    Settles setup p roots (A ++ B) (ds ++ ds') where
  outstanding o := by
    rw [Outstanding.afterAll_append, hA.outstanding, hB.outstanding, List.map_append,
      List.append_assoc]
  named := List.forall_mem_append.mpr ⟨hA.named, hB.named⟩

theorem Stops.after {e : Error} (hA : Settles setup p roots A ds)
    (h : Stops setup p roots e L) : Stops setup p roots e (A ++ L) := by
  obtain ⟨f, before, hsound, herror, rfl, hwithin, hopened⟩ := h
  refine ⟨f, A ++ before, hsound, herror, (List.append_assoc ..).symm, hwithin, fun o => ?_⟩
  obtain ⟨around, deferred, haround, ho⟩ :=
    hopened { o with deferred := o.deferred ++ ds.map Deferred.key }
  exact ⟨around, deferred, haround, by rw [Outstanding.afterAll_append, hA.outstanding, ho]⟩

namespace Accounts

theorem mono {o : Except Stop α} (h : Accounts setup p roots o L ds) (hroots : roots ⊆ roots') :
    Accounts setup p roots' o L ds := by
  refine ⟨fun a ha => ⟨(h.settles a ha).outstanding, fun d hd => ?_⟩, fun e he => ?_⟩
  · obtain ⟨⟨calls, hwithin⟩, hexpands⟩ := (h.settles a ha).named d hd
    exact ⟨⟨calls, hwithin.mono hroots⟩, hexpands⟩
  · obtain ⟨f, before, hsound, herror, hL, hwithin, hopened⟩ := h.stops e he
    exact ⟨f, before, hsound, herror, hL, hwithin.mono hroots, hopened⟩

theorem ok {a : α} (h : Settles setup p roots L ds) :
    Accounts setup p roots (.ok a : Except Stop α) L ds := ⟨fun _ _ => h, nofun⟩

theorem error {e : Stop} (h : Accounts setup p roots (.error e : Except Stop α) L ds) :
    Accounts setup p roots (.error e : Except Stop β) L ds :=
  ⟨nofun, fun cause he => h.stops cause (congrArg _ (Except.error.inj he))⟩

theorem stopped {e : Error} (h : Stops setup p roots e L) :
    Accounts setup p roots (.error (.failed e) : Except Stop α) L ds where
  settles := by rintro _ ⟨⟩
  stops := by
    rintro _ ⟨⟩
    exact h

/-- Calls that nest too deep end no run with an error. -/
theorem tooDeep : Accounts setup p roots (.error .tooDeep : Except Stop α) L ds where
  settles := by rintro _ ⟨⟩
  stops := by rintro _ ⟨⟩

theorem after {o : Except Stop α} (hA : Settles setup p roots A ds)
    (h : Accounts setup p roots o B ds') : Accounts setup p roots o (A ++ B) (ds ++ ds') :=
  ⟨fun a ha => hA.append (h.settles a ha), fun e he => (h.stops e he).after hA⟩

end Accounts

section

variable {t : Task} {inner : List Event} {name : String} (args : String) (params : Vars)

/-- A task that reports its result after the tasks below it. -/
theorem Settles.turn (h : Settles setup p (p.subtasks t) inner ds) (name : String)
    (result : TaskResult) : Settles setup p [t]
      (.startTask t name args params :: (inner ++ [.finishTask t (some result)])) ds where
  outstanding o := by
    change (o.after _).afterAll (inner ++ _) = _
    rw [Outstanding.afterAll_append, h.outstanding]
    rfl
  named d hd := by
    obtain ⟨⟨calls, hwithin⟩, hexpands⟩ := h.named d hd
    exact ⟨⟨calls ++ [t], hwithin.inCall⟩, hexpands⟩

theorem Settles.dispatched (h : t.ExpandsTo setup name) (future : Nat) :
    Settles setup p [t] [.startTask t name args params, .finishTask t none]
      [{ task := t, name, future }] where
  outstanding _ := rfl
  named := List.forall_mem_singleton.mpr ⟨⟨[], List.mem_singleton_self t⟩, h⟩

/-- A task that fails by itself. -/
theorem Accounts.failed {cause : Error} {result : TaskResult} (hcause : cause.FromTask)
    (hnamed : t.FailsUnder setup name cause) (hfailed : result.failed = true) :
    Accounts setup p [t] (.error (.failed (cause.inTask p.name name)) : Except Stop α)
      [.startTask t name args params, .finishTask t (some result)] [] :=
  .stopped ⟨⟨t, name, cause, result, []⟩, [.startTask t name args params],
    ⟨hcause, hnamed, hfailed⟩, hcause.inTask_eq _ _, rfl, List.mem_singleton_self t,
    fun o => ⟨[], o.deferred, rfl, rfl⟩⟩

/-- A call fails as the task below it that failed, and reports after it. -/
theorem Stops.inCall {e : Error} (h : Stops setup p (p.subtasks t) e inner) (name : String) :
    Stops setup p [t] e (.startTask t name args params ::
      (inner ++ [.finishTask t (some (TaskResult.ofFailure e.message))])) := by
  obtain ⟨f, before, ⟨hcause, hnamed, hfailed⟩, rfl, rfl, hwithin, hopened⟩ := h
  refine ⟨{ f with calls := f.calls ++ [t] }, .startTask t name args params :: before,
    ⟨hcause, hnamed, hfailed⟩, rfl, ?_, hwithin.inCall, fun o => ?_⟩
  · simp [Failure.reports, Failure.error, unwinding]
  · obtain ⟨around, deferred, haround, ho⟩ :=
      hopened (o.after (.startTask t name args params))
    refine ⟨around ++ [(t, name)], deferred, by simp [haround], ?_⟩
    change (o.after _).afterAll before = _
    rw [ho]
    simp [Outstanding.after]

end

end Transcript

namespace Runner

open Step

variable {roots : List Task} {t : Task} {name : String} {call : Task → Scope → Step σ Bool}

theorem traces_bind {x : Step σ α} {f : α → Step σ β} (hx : Traces p x (Accounts setup p roots))
    (hf : ∀ a, Traces p (f a) (Accounts setup p roots)) :
    Traces p (x >>= f) (Accounts setup p roots) := by
  apply hx.bind
  · intro a L ds h
    exact (hf a).mono fun o L' ds' h' => h'.after (h.settles a rfl)
  · exact fun e L ds h => h.error

theorem traces_anyChanged {run : α → Step σ Bool} {as : List α}
    (hrun : ∀ a ∈ as, Traces p (run a) (Accounts setup p roots)) :
    Traces p (anyChanged run as) (Accounts setup p roots) := by
  induction as with
  | nil => exact .pure (.ok (.nil setup p roots))
  | cons a as ih =>
    obtain ⟨ha, has⟩ := List.forall_mem_cons.mp hrun
    exact traces_bind ha fun _ => traces_bind (ih has) fun _ => .pure (.ok (.nil setup p roots))

/-- A part that stops after some events. -/
theorem traces_failTask {L : List Event} {ds : List Deferred} {cause : Error} (h : Accounts setup
    p roots (.error (.failed (cause.inTask p.name name)) : Except Stop α) L ds) :
    Traces p (failTask (σ := σ) (α := α) name cause) fun o L' ds' =>
      Accounts setup p roots o (L ++ L') (ds ++ ds') := by
  apply (Traces.of_adds setup.host (adds_failTask_inTask name cause)
    fun _ _ h => by rw [h.2]; rfl).mono
  rintro _ _ _ ⟨⟨rfl, rfl⟩, rfl⟩
  rwa [List.append_nil, List.append_nil]

theorem traces_fail (args : String) {cause : Error} (hcause : cause.FromTask)
    (hnamed : t.FailsUnder setup name cause) :
    Traces p (reportFailure t name args cause >>= fun _ => failTask (σ := σ) (α := α) name cause)
      (Accounts setup p [t]) :=
  .next setup.host (adds_reportFailure t name args cause) rfl fun _ =>
    traces_failTask (.failed args [] hcause hnamed rfl)

theorem traces_runCommand (hname : t.ExpandsTo setup name) (args : String) (params : Vars)
    (command : Command) (scope : Scope) :
    Traces p (runCommand setup t name command scope) fun o L ds =>
      Accounts setup p [t] o (.startTask t name args params :: L) ds := by
  refine .inWorldThen (P := fun _ => True) (fun _ => trivial) fun o _ => ?_
  cases o with
  | ok result =>
    refine .next setup.host (adds_complete t result) rfl fun _ => .pure (.ok ?_)
    exact (Settles.nil setup p _).turn args params name result
  | error e =>
    refine .next setup.host (adds_complete t (Command.failureResult e)) rfl fun _ => ?_
    exact traces_failTask (.failed args params (.command e) (.expanded hname)
      (Command.failed_failureResult e))

theorem traces_dispatch (hname : t.ExpandsTo setup name) (args : String) (params : Vars)
    (future : String) (command : Command) (scope : Scope) :
    Traces p (dispatch setup t name future command scope >>= fun _ => pure false)
      fun o L ds => Accounts setup p [t] o (.startTask t name args params :: L) ds :=
  fun _ hs => ⟨[.finishTask t none], [⟨t, name, _⟩], Array.toList_push, hs, rfl,
    .ok (.dispatched args params hname _)⟩

theorem traces_callModule (hcall : ∀ sub scope, Traces p (call sub scope) (Accounts setup p [sub]))
    {m : Module} (hm : p.module? t.command = some m) (args : String) (params : Vars)
    (prepared : Prepared) (scope : Scope) :
    Traces p (callModule call t prepared m scope) fun o L ds =>
      Accounts setup p [t] o (.startTask t prepared.name args params :: L) ds := by
  have hsubtasks : p.subtasks t = m.tasks := by simp [Play.subtasks, hm]
  refine .inWorldThen (P := fun _ => True) (fun _ => trivial) fun table _ => ?_
  have htasks : Traces p (anyChanged (fun sub => call sub (.table table :: scope)) m.tasks)
      (Accounts setup p (p.subtasks t)) := by
    refine traces_anyChanged fun sub hsub => (hcall sub _).mono fun _ _ _ h => h.mono ?_
    exact List.cons_subset.mpr ⟨hsubtasks ▸ hsub, List.nil_subset _⟩
  apply htasks.outcome.bind
  · rintro o inner ds ⟨_, ⟨⟩, hinner⟩
    rcases o with (cause | _) | changed
    · -- The cause names its task already, so the call does not add its own.
      have hstops := hinner.stops cause rfl
      have hsame : cause.inTask p.name prepared.name = cause := by
        obtain ⟨f, before, -, rfl, -⟩ := hstops
        rfl
      refine .next setup.host (Adds.emit rfl rfl) rfl fun _ => ?_
      have hfails : Accounts setup p [t]
          (.error (.failed (cause.inTask p.name prepared.name)) : Except Stop Bool)
          (.startTask t prepared.name args params ::
            (inner ++ [.finishTask t (some (TaskResult.ofFailure cause.message))])) ds := by
        rw [hsame]
        exact .stopped (hstops.inCall args params prepared.name)
      simpa only [List.cons_append, List.append_assoc] using traces_failTask hfails
    · exact .throw .tooDeep
    · refine .next setup.host (adds_complete t _) rfl fun _ => .pure (.ok ?_)
      rw [List.append_nil, List.append_nil]
      exact (hinner.settles changed rfl).turn args params prepared.name _
  · rintro e L ds ⟨o, ⟨⟩, -⟩

theorem traces_runOnce (hcall : ∀ sub scope, Traces p (call sub scope) (Accounts setup p [sub]))
    (t : Task) (outer : Scope) :
    Traces p (runOnce setup call t outer) (Accounts setup p [t]) := by
  apply Traces.getThen
  intro s hs
  rw [hs]
  have hprepare : Answers (t.prepare setup p (t.scope outer)) fun o =>
      ((∀ u, o = .error u → t.FailsUnder setup u.name u.cause) ∧
        ∀ prepared, o = .ok prepared → t.ExpandsTo setup prepared.name) ∧
      (∀ u, o = .error u → u.cause.FromTask) ∧
        ∀ prepared, o = .ok prepared → Task.Calls p t prepared := fun w =>
    ⟨t.names_prepare setup p outer w, t.answers_prepare p (t.scope outer) w,
      Task.calls_of_prepare setup p t (t.scope outer) w⟩
  refine .inWorldThen hprepare fun o ho => ?_
  obtain ⟨⟨hfails, hexpands⟩, hcause, hcalls⟩ := ho
  cases o with
  | error u => exact traces_fail u.args (hcause u rfl) (hfails u rfl)
  | ok prepared =>
    refine .next setup.host (Adds.emit rfl rfl) rfl fun _ => ?_
    have hname := hexpands prepared rfl
    cases haction : prepared.action with
    | call m =>
      obtain ⟨hm, -⟩ := hcalls prepared rfl m haction
      exact traces_callModule hcall hm _ _ prepared _
    | run command =>
      dsimp only
      cases futureName? t prepared.name with
      | none => exact traces_runCommand hname _ _ command _
      | some future => exact traces_dispatch hname _ _ future command _

theorem traces_runTaskWith
    (hcall : ∀ sub scope, Traces p (call sub scope) (Accounts setup p [sub])) (t : Task)
    (outer : Scope) : Traces p (runTaskWith setup call t outer) (Accounts setup p [t]) := by
  have hitem (item : Value) : Traces p (runItem setup call t outer item) (Accounts setup p [t]) :=
    .next setup.host (adds_newTable _) rfl fun _ => traces_runOnce hcall t _
  rw [runTaskWith_eq]
  refine .inWorldThen (t.names_due setup outer) fun o ho => ?_
  rcases o with e | _ | _
  · exact traces_fail "" (.expr e) (ho e rfl)
  · exact .pure (.ok (.nil setup p _))
  · change Traces p (runDue setup call t outer) _
    unfold runDue
    cases t.items with
    | none => exact traces_runOnce hcall t outer
    | some items => exact traces_anyChanged fun item _ => hitem item

theorem traces_runTask (setup : Setup σ) (p : Play) (depth : Nat) (t : Task) (outer : Scope) :
    Traces p (runTask setup depth t outer) (Accounts setup p [t]) := by
  induction depth generalizing t outer with
  | zero => exact .throw .tooDeep
  | succ depth ih => exact traces_runTaskWith ih t outer

theorem traces_runPlayTask (p : Play) (t : Task) :
    Traces p (runPlayTask setup t) (Accounts setup p [t]) :=
  .getThen fun _ _ => traces_runTask setup p setup.callDepth t _

end Runner

/-! ### Phases -/

/-- The events end with the reports of a failure, and when they began the failed task was the
one to report next. -/
def Failed (setup : Setup σ) (plays : List Play) (e : Error) (L : List Event) : Prop :=
  ∃ p ∈ plays, ∃ (f : Failure) (before : List Event), f.Sound setup ∧ e = f.error p ∧
    L = before ++ f.reports p ∧ f.Next p (.of before)

/-- Nothing is open, and these tasks run deferred, in the order of their dispatch. -/
def RunState.Waits (s : RunState σ) (queue : List Deferred) : Prop :=
  Outstanding.of s.events.toList = { deferred := queue.map Deferred.key }

/-- The play is one of the run's, and what it deferred are tasks of it. -/
structure PlayState.Named (setup : Setup σ) (plays : List Play) (c : PlayState) : Prop where
  play : c.play ∈ plays
  deferred : ∀ d ∈ c.deferred, d.Named setup c.play (c.play.tasks ++ c.play.handlers)

namespace Step

/-- The part goes on as the condition says, or it stops the run with a failure. -/
def GoesOn (setup : Setup σ) (plays : List Play) (x : Step σ α) (s : RunState σ)
    (post : α → RunState σ → Prop) : Prop :=
  x.Ends s fun o v => (∀ a, o = .ok a → post a v) ∧
    ∀ e, o = .error (.failed e) → Failed setup plays e v.events.toList

namespace GoesOn

variable {x : Step σ α} {f : α → Step σ β} {s : RunState σ} {P Q : α → RunState σ → Prop}
  {R : β → RunState σ → Prop}

theorem pure {a : α} (h : P a s) : GoesOn setup plays (pure a) s P :=
  ⟨by rintro _ ⟨⟩; exact h, nofun⟩

theorem bind (hx : GoesOn setup plays x s P)
    (hf : ∀ a v, P a v → GoesOn setup plays (f a) v R) : GoesOn setup plays (x >>= f) s R := by
  apply Ends.bind hx
  · exact fun a v h => hf a v (h.1 a rfl)
  · exact fun e v h => ⟨nofun, fun cause he => h.2 cause (congrArg _ (Except.error.inj he))⟩

theorem emit {e : Event} : GoesOn setup plays (Step.emit e) s fun _ v => v = s.push e :=
  ⟨fun _ _ => rfl, nofun⟩

theorem getThen {g : RunState σ → Step σ α} (h : GoesOn setup plays (g s) s P) :
    GoesOn setup plays (get >>= g) s P := h

/-- A part that goes on as another part does from another state. -/
theorem shift {y : Step σ α} (s' : RunState σ) (hrun : x.run.run s = y.run.run s')
    (h : GoesOn setup plays y s' P) : GoesOn setup plays x s P := by
  unfold GoesOn Ends at h ⊢
  rwa [hrun]

/-- Tasks of the running play go on with what they defer, behind all that waits already. -/
theorem of_traces {roots : List Task} {queue : List Deferred}
    (hx : Traces s.current.play x (Accounts setup s.current.play roots))
    (hroots : roots ⊆ s.current.play.tasks ++ s.current.play.handlers)
    (hnamed : s.current.Named setup plays) (hwaits : s.Waits (queue ++ s.current.deferred)) :
    GoesOn setup plays x s fun _ v => v.current.play = s.current.play ∧
      v.current.Named setup plays ∧ v.Waits (queue ++ v.current.deferred) := by
  apply (hx s rfl).mono
  rintro o v ⟨L, ds, hL, hplay, hds, haccounts⟩
  have haccounts := haccounts.mono hroots
  refine ⟨fun a ha => ?_, fun e he => ?_⟩
  · obtain ⟨houtstanding, hnew⟩ := haccounts.settles a ha
    refine ⟨hplay, ⟨hplay ▸ hnamed.play, ?_⟩, ?_⟩
    · rw [hplay, hds]
      exact List.forall_mem_append.mpr ⟨hnamed.deferred, hnew⟩
    · unfold RunState.Waits at hwaits ⊢
      rw [hL, Outstanding.of_append, hwaits, houtstanding, hds]
      simp
  · obtain ⟨f, before, hsound, herror, rfl, hwithin, hopened⟩ := haccounts.stops e he
    obtain ⟨around, deferred, haround, ho⟩ := hopened (.of s.events.toList)
    refine ⟨s.current.play, hnamed.play, f, s.events.toList ++ before, hsound, herror, ?_, ?_⟩
    · rw [hL, List.append_assoc]
    · rw [Outstanding.of_append, ho, hwaits, List.append_nil]
      exact .opened haround hwithin

end GoesOn

end Step

namespace Runner

open Step

variable {s : RunState σ} {queue : List Deferred}

theorem goesOn_runPlay (hp : p ∈ plays) (hwaits : s.Waits queue) :
    GoesOn setup plays (runPlay setup p) s fun st v =>
      st.Named setup plays ∧ v.Waits (queue ++ st.deferred) := by
  let table := s.world.newTable p.vars
  let s' : RunState σ := { s with world := table.2, current := { play := p, table := table.1 } }
  refine .shift s' rfl (y := do
    let _ ← anyChanged (runPlayTask setup) p.tasks
    return (← get).current) ?_
  have htasks : Traces p (anyChanged (runPlayTask setup) p.tasks) (Accounts setup p p.tasks) :=
    traces_anyChanged fun t ht => (traces_runPlayTask p t).mono fun _ _ _ h =>
      h.mono (List.cons_subset.mpr ⟨ht, List.nil_subset _⟩)
  have hwaits' : s'.Waits (queue ++ []) := by rwa [List.append_nil]
  refine (GoesOn.of_traces htasks (List.subset_append_left _ _) ⟨hp, by simp [s']⟩
    hwaits').bind ?_
  rintro _ v ⟨-, hnamed, hwaits⟩
  exact .getThen (.pure ⟨hnamed, hwaits⟩)

theorem goesOn_plays {ps : List Play} (hps : ∀ p ∈ ps, p ∈ plays) (hwaits : s.Waits queue) :
    GoesOn setup plays (ps.mapM (runPlay setup)) s fun sts v =>
      (∀ st ∈ sts, st.Named setup plays) ∧ v.Waits (queue ++ sts.flatMap PlayState.deferred) := by
  induction ps generalizing s queue with
  | nil => exact .pure ⟨nofun, by simpa using hwaits⟩
  | cons p ps ih =>
    obtain ⟨hp, hps⟩ := List.forall_mem_cons.mp hps
    rw [List.mapM_cons]
    refine (goesOn_runPlay hp hwaits).bind fun st v ⟨hst, hv⟩ => ?_
    refine (ih hps hv).bind fun sts w ⟨hsts, hw⟩ => .pure ⟨List.forall_mem_cons.mpr ⟨hst, hsts⟩, ?_⟩
    rwa [List.flatMap_cons, ← List.append_assoc]

theorem waits_finish {v : RunState σ} {d : Deferred} {t : Task} {result : Option TaskResult}
    (h : s.Waits (d :: queue)) (hv : v.events.toList = s.events.toList ++ [.finishTask t result]) :
    v.Waits queue := by
  unfold RunState.Waits at h ⊢
  rw [hv, Outstanding.of_append, h]
  rfl

theorem waits_push {e : Event} (h : s.Waits queue) (he : e ∈ openings) :
    (s.push e).Waits queue := by
  have hpush : (s.push e).events.toList = s.events.toList ++ [e] := Array.toList_push
  unfold RunState.Waits at h ⊢
  rw [hpush, Outstanding.of_append, h]
  simp only [openings, List.mem_cons, List.not_mem_nil, or_false] at he
  rcases he with rfl | rfl | rfl <;> rfl

/-- A deferred task is awaited when it is the first that waits, so that its failure goes by the
name with which it started. -/
theorem goesOn_await {d : Deferred} (hplay : s.current.play ∈ plays)
    (hd : d.Named setup s.current.play (s.current.play.tasks ++ s.current.play.handlers))
    (hwaits : s.Waits (d :: queue)) :
    GoesOn setup plays (await setup d) s fun _ v => v.current.play = s.current.play ∧
      v.current.deferred = s.current.deferred ∧ v.Waits queue := by
  have hcause : FailsFromTask ((Future.force setup.host d.future).run s.world).1 :=
    Future.answers_force d.future s.world
  apply Ends.inWorldThen
  rcases hforce : (Future.force setup.host d.future).run s.world with ⟨e | result, w⟩
  · rw [hforce] at hcause
    have hcause : e.FromTask := hcause e rfl
    obtain ⟨⟨calls, hwithin⟩, hexpands⟩ := hd
    refine ⟨nofun, ?_⟩
    rintro _ ⟨⟩
    refine ⟨s.current.play, hplay, ⟨d.task, d.name, e, TaskResult.ofFailure e.message, []⟩,
      s.events.toList, ⟨hcause, .expanded hexpands, rfl⟩, hcause.inTask_eq _ _,
      Array.toList_push, ?_⟩
    rw [hwaits]
    exact .deferred rfl hwithin
  · by_cases hchanged : result.changed
    · simp only [if_pos hchanged]
      exact ⟨fun _ _ => ⟨rfl, rfl, waits_finish hwaits Array.toList_push⟩, nofun⟩
    · simp only [if_neg hchanged]
      exact ⟨fun _ _ => ⟨rfl, rfl, waits_finish hwaits Array.toList_push⟩, nofun⟩

theorem goesOn_awaitAll {ds : List Deferred} (hplay : s.current.play ∈ plays)
    (hds : ∀ d ∈ ds,
      d.Named setup s.current.play (s.current.play.tasks ++ s.current.play.handlers))
    (hwaits : s.Waits (ds ++ queue)) :
    GoesOn setup plays (ds.forM (await setup)) s fun _ v => v.current.play = s.current.play ∧
      v.current.deferred = s.current.deferred ∧ v.Waits queue := by
  induction ds generalizing s with
  | nil => exact .pure ⟨rfl, rfl, hwaits⟩
  | cons d ds ih =>
    obtain ⟨hd, hds⟩ := List.forall_mem_cons.mp hds
    refine GoesOn.bind (goesOn_await hplay hd hwaits) fun _ v ⟨hsame, hdeferred, hv⟩ => ?_
    have hrest := ih (hsame ▸ hplay) (hsame ▸ hds) hv
    rwa [hsame, hdeferred] at hrest

theorem goesOn_drain (hnamed : s.current.Named setup plays)
    (hwaits : s.Waits (s.current.deferred ++ queue)) :
    GoesOn setup plays (drain setup) s fun _ v => v.current.play = s.current.play ∧
      v.current.deferred = [] ∧ v.Waits queue :=
  .shift { s with current := { s.current with deferred := [] } } rfl
    (goesOn_awaitAll hnamed.play hnamed.deferred hwaits)

theorem goesOn_drains {sts : List PlayState} (hsts : ∀ st ∈ sts, st.Named setup plays)
    (hwaits : s.Waits (sts.flatMap PlayState.deferred)) :
    GoesOn setup plays (sts.mapM (drainPlay setup)) s fun sts' v =>
      (∀ st ∈ sts', st.play ∈ plays ∧ st.deferred = []) ∧ v.Waits [] := by
  induction sts generalizing s with
  | nil => exact .pure ⟨nofun, hwaits⟩
  | cons st sts ih =>
    obtain ⟨hst, hsts⟩ := List.forall_mem_cons.mp hsts
    have hdrain : GoesOn setup plays (drainPlay setup st) s fun st' v =>
        (st'.play ∈ plays ∧ st'.deferred = []) ∧ v.Waits (sts.flatMap PlayState.deferred) := by
      refine .shift { s with current := st } rfl (y := do drain setup; return (← get).current) ?_
      refine (goesOn_drain hst hwaits).bind fun _ v ⟨hplay, hdeferred, hv⟩ => .getThen ?_
      exact .pure ⟨⟨hplay ▸ hst.play, hdeferred⟩, hv⟩
    rw [List.mapM_cons]
    refine hdrain.bind fun st' v ⟨hst', hv⟩ => (ih hsts hv).bind fun sts' w ⟨hsts', hw⟩ => ?_
    exact .pure ⟨List.forall_mem_cons.mpr ⟨hst', hsts'⟩, hw⟩

/-- The tasks and handlers that the running play defers are all that waits. -/
def Alone (setup : Setup σ) (plays : List Play) (p : Play) (s : RunState σ) : Prop :=
  s.current.play = p ∧ s.current.Named setup plays ∧ s.Waits s.current.deferred

theorem goesOn_runHandler (started : Bool) {h : Task} (hh : h ∈ p.handlers)
    (hs : Alone setup plays p s) :
    GoesOn setup plays (runHandler setup started h) s fun _ v => Alone setup plays p v := by
  obtain ⟨rfl, hnamed, hwaits⟩ := hs
  have hrun {s : RunState σ} (hh : h ∈ s.current.play.handlers)
      (hnamed : s.current.Named setup plays) (hwaits : s.Waits s.current.deferred) :
      GoesOn setup plays (runPlayTask setup h >>= fun _ => pure true) s fun _ v =>
        Alone setup plays s.current.play v := by
    have hroots : [h] ⊆ s.current.play.tasks ++ s.current.play.handlers :=
      List.cons_subset.mpr ⟨List.mem_append_right _ hh, List.nil_subset _⟩
    have hwaits : s.Waits ([] ++ s.current.deferred) := hwaits
    exact (GoesOn.of_traces (traces_runPlayTask _ h) hroots hnamed hwaits).bind
      fun _ _ hv => .pure hv
  apply GoesOn.getThen
  by_cases hnotified : s.current.notified.contains h.name
  · rw [if_pos hnotified]
    cases started with
    | true => exact hrun hh hnamed hwaits
    | false =>
      refine GoesOn.emit.bind ?_
      rintro _ _ rfl
      exact hrun (s := s.push .startHandlers) hh hnamed (waits_push hwaits (by simp [openings]))
  · rw [if_neg hnotified]
    exact .pure ⟨rfl, hnamed, hwaits⟩

theorem goesOn_runHandlers (started : Bool) {st : PlayState} (hst : st.play ∈ plays)
    (hdeferred : st.deferred = []) (hwaits : s.Waits []) :
    GoesOn setup plays (runHandlers setup started st) s fun _ v => v.Waits [] := by
  have hall {hs : List Task} (hhs : ∀ h ∈ hs, h ∈ st.play.handlers) (started : Bool)
      {s : RunState σ} (h : Alone setup plays st.play s) :
      GoesOn setup plays (hs.foldlM (runHandler setup) started) s fun _ v =>
        Alone setup plays st.play v := by
    induction hs generalizing s started with
    | nil => exact .pure h
    | cons first rest ih =>
      obtain ⟨hfirst, hrest⟩ := List.forall_mem_cons.mp hhs
      rw [List.foldlM_cons]
      exact (goesOn_runHandler started hfirst h).bind fun started' v hv => ih hrest started' hv
  refine .shift { s with current := st } rfl (y := do
    let started ← st.play.handlers.foldlM (runHandler setup) started
    drain setup
    return started) ?_
  have hstart : Alone setup plays st.play { s with current := st } :=
    ⟨rfl, ⟨hst, by simp [hdeferred]⟩, by rwa [hdeferred]⟩
  refine (hall (fun _ h => h) started hstart).bind fun started' v ⟨_, hnamed, hv⟩ => ?_
  have hv : v.Waits (v.current.deferred ++ []) := by rwa [List.append_nil]
  exact (goesOn_drain hnamed hv).bind fun _ w ⟨_, _, hw⟩ => .pure hw

theorem goesOn_allHandlers (started : Bool) {sts : List PlayState}
    (hsts : ∀ st ∈ sts, st.play ∈ plays ∧ st.deferred = []) (hwaits : s.Waits []) :
    GoesOn setup plays (sts.foldlM (runHandlers setup) started) s fun _ _ => True := by
  induction sts generalizing s started with
  | nil => exact .pure trivial
  | cons st sts ih =>
    obtain ⟨⟨hst, hdeferred⟩, hsts⟩ := List.forall_mem_cons.mp hsts
    rw [List.foldlM_cons]
    exact (goesOn_runHandlers started hst hdeferred hwaits).bind fun started' v hv =>
      ih started' hsts hv

theorem goesOn_openPhases (setup : Setup σ) (plays : List Play) (hwaits : s.Waits []) :
    GoesOn setup plays (openPhases setup plays) s fun _ _ => True := by
  refine GoesOn.emit.bind ?_
  rintro _ _ rfl
  have hplays : GoesOn setup plays (plays.mapM (runPlay setup)) (s.push .startTasks) _ :=
    goesOn_plays (fun _ hp => hp) (waits_push hwaits (by simp [openings]))
  refine hplays.bind ?_
  rintro sts v ⟨hsts, hv⟩
  refine GoesOn.emit.bind ?_
  rintro _ _ rfl
  have hdrains := goesOn_drains hsts (waits_push hv (e := .finishTasks) (by simp [openings]))
  refine hdrains.bind ?_
  rintro sts' w ⟨hsts', hw⟩
  exact goesOn_allHandlers false hsts' hw

theorem goesOn_runPhases (setup : Setup σ) (plays : List Play) (hwaits : s.Waits []) :
    GoesOn setup plays (runPhases setup plays) s fun _ _ => True := by
  rw [runPhases_eq]
  refine (goesOn_openPhases setup plays hwaits).bind fun started v _ => ?_
  cases started with
  | false => exact ⟨fun _ _ => trivial, nofun⟩
  | true => exact ⟨fun _ _ => trivial, nofun⟩

/-- An error that ends a run speaks of the task whose failure is reported first, and of the play
that this task belongs to, however many module calls lie around it. -/
theorem error_names_failed_task (setup : Setup σ) (book : Playbook) (world : World σ) {e : Error}
    (herror : (run setup book world).error = some e) :
    ∃ p ∈ book.plays, ∃ f : Failure, f.EndsRun setup p e (run setup book world).events := by
  have hphases := goesOn_runPhases (s := RunState.initial world) setup book.plays rfl
  rw [run_eq] at herror ⊢
  rcases hrun : (runPhases setup book.plays).run.run (RunState.initial world) with ⟨(e' | _) | _, s⟩
  · rw [hrun] at herror
    obtain rfl : e' = e := Option.some.inj herror
    obtain ⟨p, hp, f, before, hsound, rfl, hL, hnext⟩ := (Ends.of_run hphases hrun).2 e' rfl
    have hevents : s.events.toList ++ [.ended (some (f.error p))] =
        before ++ f.reports p ++ [.ended (some (f.error p))] := by rw [hL]
    exact ⟨p, hp, f, rfl, hsound.cause, hsound.cause.exitCode_task _ _, hsound.named,
      hsound.failed, before, hevents, hnext, Outstanding.exists_startTask hnext.mem⟩
  · rw [hrun] at herror
    cases herror
  · rw [hrun] at herror
    cases herror

/-- Surroundings in which `touch` succeeds once. -/
def refusingSecond : Setup Nat := touchingAs fun n =>
  if n = 0 then (.ok .ok, 1) else (.error (.failed "refused" none), n)

/-- A module call that dispatches a task twice, each time under a name of its own. -/
def deferredWithin : Playbook where
  plays := [{
    name := "p"
    tasks := [{ name := "call", command := "outer" }]
    modules := [("outer", { name := "outer", tasks := [{
      name := "t \x7b\x7b item \x7d\x7d", command := "touch", items := some [.int 1, .int 2]
      isAsync := true }] })] }]

theorem error_names_failed_task_deferredWithin : ∃ e,
    (run refusingSecond deferredWithin { host := 0 }).error = some e ∧
      e.message = "Task 't 2' in play 'p' failed: Future 't 2' failed: refused" ∧
      ∃ p ∈ deferredWithin.plays, ∃ f : Failure, f.EndsRun refusingSecond p e
        (run refusingSecond deferredWithin { host := 0 }).events := by
  have hmessage : (run refusingSecond deferredWithin { host := 0 }).error.map Error.message =
      some "Task 't 2' in play 'p' failed: Future 't 2' failed: refused" := by decide +kernel
  obtain ⟨e, herror, hmessage⟩ := Option.map_eq_some_iff.mp hmessage
  exact ⟨e, herror, hmessage, error_names_failed_task refusingSecond deferredWithin _ herror⟩

end Runner

end PlaybookRunner
