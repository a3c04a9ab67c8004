import PlaybookRunner.Proofs.Evolution
import PlaybookRunner.Proofs.Transcript
import PlaybookRunner.Run.Runner

/-!
# Parts of a run

A part of a run extends the state it starts in: it appends events, the world gets
later, and the running play records what the events say, namely the tasks that
were dispatched and the handlers that were notified. What a part adds is stated
of its outcome and its events, and follows the order of its steps.
-/

namespace PlaybookRunner

variable {σ α β : Type} {host : Host σ}

open Transcript

/-- The future of a deferred task keeps an outcome of a command of the task. -/
def Deferred.Settled (host : Host σ) (w : World σ) (d : Deferred) : Prop :=
  ∃ f command scope outcome, w.futures[d.future]? = some f ∧ f.progress = .ofOutcome outcome ∧
    (Job.command command scope d.task).Yields host outcome

/-- A play's state after more events of its tasks. -/
structure PlayState.Moves (host : Host σ) (w : World σ) (c : PlayState) (L : List Event)
    (c' : PlayState) : Prop where
  play : c'.play = c.play
  deferred : ∃ ds, c'.deferred = c.deferred ++ ds ∧ ds.map Deferred.task = dispatched L ∧
    ∀ d ∈ ds, d.Settled host w
  notified : ∀ name, name ∈ c'.notified ↔ name ∈ c.notified ∨ name ∈ notices L

namespace RunState

/-- The state in which the phases of a run start. -/
def initial (world : World σ) : RunState σ :=
  { world := { world with recorded := #[] }, current := { play := { name := "" }, table := 0 } }

/-- The state after an event. -/
def push (e : Event) (s : RunState σ) : RunState σ := { s with events := s.events.push e }

/-- A state after more events. -/
structure Grows (host : Host σ) (s : RunState σ) (L : List Event) (s' : RunState σ) : Prop where
  events : s'.events.toList = s.events.toList ++ L
  later : s.world.Later host s'.world

/-- A state after more events of tasks of the running play. -/
structure Extends (host : Host σ) (s : RunState σ) (L : List Event) (s' : RunState σ) : Prop
    extends Grows host s L s' where
  current : s.current.Moves host s'.world L s'.current

end RunState

theorem Deferred.Settled.later {d : Deferred} {v w : World σ} (h : d.Settled host v)
    (hw : v.Later host w) : d.Settled host w := by
  obtain ⟨f, command, scope, outcome, hf, hp, ho⟩ := h
  obtain ⟨run, hrun⟩ := hw
  refine ⟨f, command, scope, outcome, hrun.getElem?_of_started hf ?_, hp, ho⟩
  rw [hp]
  cases outcome <;> simp [Progress.ofOutcome]

namespace PlayState.Moves

variable {v w : World σ} {c c' c'' : PlayState} {A B L : List Event}

theorem refl (w : World σ) (c : PlayState) : c.Moves host w [] c :=
  ⟨rfl, ⟨[], by simp⟩, by simp⟩

theorem later (h : c.Moves host v L c') (hw : v.Later host w) : c.Moves host w L c' := by
  obtain ⟨ds, hds, htasks, hsettled⟩ := h.deferred
  exact ⟨h.play, ⟨ds, hds, htasks, fun d hd => (hsettled d hd).later hw⟩, h.notified⟩

theorem trans (h : c.Moves host w A c') (h' : c'.Moves host w B c'') :
    c.Moves host w (A ++ B) c'' := by
  obtain ⟨ds, hds, htasks, hsettled⟩ := h.deferred
  obtain ⟨ds', hds', htasks', hsettled'⟩ := h'.deferred
  refine ⟨h'.play.trans h.play, ⟨ds ++ ds', ?_, ?_, ?_⟩, fun name => ?_⟩
  · rw [hds', hds, List.append_assoc]
  · rw [List.map_append, htasks, htasks', dispatched_append]
  · exact fun d hd => (List.mem_append.mp hd).elim (hsettled d) (hsettled' d)
  · rw [h'.notified, h.notified, notices_append, List.mem_append, or_assoc]

end PlayState.Moves

namespace RunState

variable {s s' s'' : RunState σ} {A B : List Event}

theorem Grows.refl (s : RunState σ) : s.Grows host [] s := ⟨by simp, .refl _⟩

theorem Grows.trans (h : s.Grows host A s') (h' : s'.Grows host B s'') :
    s.Grows host (A ++ B) s'' :=
  ⟨by rw [h'.events, h.events, List.append_assoc], h.later.trans h'.later⟩

theorem grows_push (host : Host σ) (e : Event) (s : RunState σ) : s.Grows host [e] (s.push e) :=
  ⟨Array.toList_push, .refl _⟩

theorem Extends.refl (s : RunState σ) : s.Extends host [] s := ⟨.refl s, .refl _ _⟩

theorem Extends.trans (h : s.Extends host A s') (h' : s'.Extends host B s'') :
    s.Extends host (A ++ B) s'' :=
  ⟨h.toGrows.trans h'.toGrows, (h.current.later h'.later).trans h'.current⟩

end RunState

namespace Step

variable {x : Step σ α} {f : α → Step σ β} {s : RunState σ}

@[simp] theorem run_emit (e : Event) (s : RunState σ) :
    (emit e).run.run s = (.ok (), { s with events := s.events.push e }) := rfl

@[simp] theorem run_inWorld (z : RunM σ α) (s : RunState σ) :
    (inWorld z).run.run s = (.ok (z.run s.world).1, { s with world := (z.run s.world).2 }) := rfl

/-- If parts in a row end well, then each of them does. -/
theorem run_bind_ok {w : RunState σ} {b : β} (h : (x >>= f).run.run s = (.ok b, w)) :
    ∃ a v, x.run.run s = (.ok a, v) ∧ (f a).run.run v = (.ok b, w) := by
  change (ExceptT.bindCont f (x.run.run s).1).run (x.run.run s).2 = (.ok b, w) at h
  rcases hx : x.run.run s with ⟨o, v⟩
  rw [hx] at h
  cases o with
  | ok a => exact ⟨a, v, rfl, h⟩
  | error e => cases h

/-- The part ends well: its answer, the events it adds, and the state it leaves. -/
def Gives (x : Step σ α) (s : RunState σ) (a : α) (L : List Event) (v : RunState σ) : Prop :=
  x.run.run s = (.ok a, v) ∧ v.events.toList = s.events.toList ++ L

/-- A part is run for one element after the other, and each time ends well. -/
inductive InTurn (f : α → Step σ β) :
    RunState σ → List α → List β → List (List Event) → RunState σ → Prop
  | nil (s : RunState σ) : InTurn f s [] [] [] s
  | cons {s v w : RunState σ} {a : α} {as : List α} {b : β} {bs : List β} {L : List Event}
      {Ls : List (List Event)} (hfirst : (f a).Gives s b L v) (hrest : InTurn f v as bs Ls w) :
      InTurn f s (a :: as) (b :: bs) (L :: Ls) w

/-- The part ends with an outcome and in a state as the condition says. -/
def Ends (x : Step σ α) (s : RunState σ) (post : Except Stop α → RunState σ → Prop) : Prop :=
  post (x.run.run s).1 (x.run.run s).2

namespace Ends

variable {Q Q' : Except Stop α → RunState σ → Prop} {R : Except Stop β → RunState σ → Prop}

theorem pure {a : α} (h : Q (.ok a) s) : Ends (pure a) s Q := h

theorem mono (h : x.Ends s Q) (hQ : ∀ o v, Q o v → Q' o v) : x.Ends s Q' := hQ _ _ h

theorem bind (hx : x.Ends s Q) (hok : ∀ a v, Q (.ok a) v → (f a).Ends v R)
    (herror : ∀ e v, Q (.error e) v → R (.error e) v) : (x >>= f).Ends s R := by
  unfold Ends at hx
  change R ((ExceptT.bindCont f (x.run.run s).1).run (x.run.run s).2).1
    ((ExceptT.bindCont f (x.run.run s).1).run (x.run.run s).2).2
  generalize x.run.run s = r at hx ⊢
  obtain ⟨o, v⟩ := r
  cases o with
  | ok a => exact hok a v hx
  | error e => exact herror e v hx

theorem of_run {o : Except Stop α} {v : RunState σ} (h : x.Ends s Q) (hrun : x.run.run s = (o, v)) :
    Q o v := by
  unfold Ends at h
  rwa [hrun] at h

theorem withRun (h : x.Ends s Q) : x.Ends s fun o v => Q o v ∧ x.run.run s = (o, v) := ⟨h, rfl⟩

theorem modifyThen {change : RunState σ → RunState σ} {y : Step σ β} (h : y.Ends (change s) R) :
    (modify change >>= fun _ => y).Ends s R := h

theorem inWorldThen {z : RunM σ α}
    (h : (f (z.run s.world).1).Ends { s with world := (z.run s.world).2 } R) :
    (inWorld z >>= f).Ends s R := h

end Ends

/-- Whatever state of the play the part starts in, it extends that state by
events that fit its outcome. -/
def Adds (host : Host σ) (p : Play) (x : Step σ α) (post : Except Stop α → List Event → Prop) :
    Prop :=
  ∀ s, s.current.play = p → x.Ends s fun o v => ∃ L, s.Extends host L v ∧ post o L

namespace Adds

variable {p : Play} {Q Q' : Except Stop α → List Event → Prop}
  {R : Except Stop β → List Event → Prop}

theorem pure {a : α} (h : Q (.ok a) []) : Adds host p (pure a) Q :=
  fun s _ => ⟨[], .refl s, h⟩

theorem throw {e : Stop} (h : Q (.error e) []) : Adds host p (throw e) Q :=
  fun s _ => ⟨[], .refl s, h⟩

theorem mono (h : Adds host p x Q) (hQ : ∀ o L, Q o L → Q' o L) : Adds host p x Q' :=
  fun s hs => (h s hs).mono fun o _ ⟨L, hL, hpost⟩ => ⟨L, hL, hQ o L hpost⟩

theorem bind (hx : Adds host p x Q)
    (hok : ∀ a L, Q (.ok a) L → Adds host p (f a) fun o L' => R o (L ++ L'))
    (herror : ∀ e L, Q (.error e) L → R (.error e) L) : Adds host p (x >>= f) R := by
  intro s hs
  apply (hx s hs).bind
  · rintro a v ⟨L, hL, hpost⟩
    apply (hok a L hpost v (hL.current.play.trans hs)).mono
    rintro o w ⟨L', hL', hpost'⟩
    exact ⟨L ++ L', hL.trans hL', hpost'⟩
  · rintro e v ⟨L, hL, hpost⟩
    exact ⟨L, hL, herror e L hpost⟩

/-- A part that never stops, followed by another. -/
theorem next {A : List Event} (hx : Adds host p x fun o L => (∃ a, o = .ok a) ∧ L = A)
    (hf : ∀ a, Adds host p (f a) fun o L => R o (A ++ L)) : Adds host p (x >>= f) R := by
  apply hx.bind
  · rintro a L ⟨-, rfl⟩
    exact hf a
  · rintro e L ⟨⟨a, ha⟩, -⟩
    cases ha

theorem getThen {g : RunState σ → Step σ α} (h : ∀ s, s.current.play = p → Adds host p (g s) Q) :
    Adds host p (get >>= g) Q := fun s hs => h s hs s hs

/-- An event that neither dispatches nor notifies. -/
theorem emit {e : Event} (hdispatched : dispatched [e] = []) (hnotices : notices [e] = []) :
    Adds host p (Step.emit e) fun o L => (∃ a, o = .ok a) ∧ L = [e] := by
  refine fun s _ => ⟨[e], ⟨⟨Array.toList_push, .refl _⟩, rfl, ⟨[], ?_⟩, ?_⟩, ⟨(), rfl⟩, rfl⟩
  · simp [hdispatched]
  · simp [hnotices]

theorem inWorld {z : RunM σ α} (h : ∀ w : World σ, w.Later host (z.run w).2) :
    Adds host p (Step.inWorld z) fun o L => (∃ a, o = .ok a) ∧ L = [] :=
  fun s _ => ⟨[], ⟨⟨by simp, h s.world⟩, .refl _ _⟩, ⟨_, rfl⟩, rfl⟩

theorem outcome (h : Adds host p x Q) :
    Adds host p (Step.outcome x) fun o L => ∃ o', o = .ok o' ∧ Q o' L := by
  intro s hs
  obtain ⟨L, hL, hpost⟩ := h s hs
  exact ⟨L, hL, _, rfl, hpost⟩

end Adds

end Step

end PlaybookRunner
