import PlaybookRunner.Proofs.PlayPairs

/-!
# Running again

A run leaves the tables outside its plays as they were. Two runs of a playbook from
worlds that have grown from one world are therefore alike, if what the commands come to
depends on nothing but their parameters and what they read.
-/

namespace PlaybookRunner

variable {σ α β γ δ : Type}

/-- The tables of a scope are there, and so are the futures that they bind. -/
def Scope.Grounded (scope : Scope) (w : World σ) : Prop :=
  ∀ i, .table i ∈ scope → i < w.tables.size ∧
    ∀ key future, (w.table i).futures.get? key = some future → future < w.futures.size

/-- The tables of a scope correspond to themselves, and so do the first futures. -/
def Pairing.outside (scope : Scope) (n : Nat) : Pairing where
  tables i j := i = j ∧ .table i ∈ scope
  futures i j := i = j ∧ i < n
  reserved _ := False

theorem Scope.mirrors_outside (scope : Scope) (n : Nat) :
    Scope.Mirrors (.outside scope n) scope scope := by
  refine List.forall₂_same.mpr fun layer hlayer => ?_
  cases layer with
  | table i => exact .table ⟨rfl, hlayer⟩
  | fixed vars => exact .fixed vars

namespace World

variable {w v v' : World σ} {scope : Scope} {hidden : String → Prop} {H : σ → σ → Prop}

/-- All tables and futures are as they were, and more may have been added. -/
abbrev Kept (w v : World σ) : Prop := w.Spares w.tables.size w.tables.size v

theorem Kept.table (h : w.Kept v) {i : Nat} (hi : i < w.tables.size) : v.table i = w.table i :=
  table_congr (h.tables i hi (Nat.ne_of_lt hi))

theorem Kept.trans {u : World σ} (h : w.Kept v) (h' : v.Kept u) : w.Kept u where
  size_le := Nat.le_trans h.size_le h'.size_le
  tables i hi hne := by
    have hv : i < v.tables.size := Nat.lt_of_lt_of_le hi h.size_le
    exact (h'.tables i hv (Nat.ne_of_lt hv)).trans (h.tables i hi hne)
  futures := h.futures.trans h'.futures

/-- Two worlds that have grown from one world mirror each other in what it had. -/
theorem Kept.mirrors (hground : scope.Grounded w) (h : w.Kept v) (h' : w.Kept v')
    (hsettled : v.Settled) (hsettled' : v'.Settled) (hhost : H v.host v'.host) :
    v.Mirrors hidden H (.outside scope w.futures.size) v' where
  settled := hsettled
  settled' := hsettled'
  host := hhost
  lt := by
    rintro i _ ⟨rfl, hi⟩
    have hlt := (hground i hi).1
    exact ⟨Nat.lt_of_lt_of_le hlt h.size_le, Nat.lt_of_lt_of_le hlt h'.size_le⟩
  functional := by
    rintro i j k ⟨rfl, -⟩ ⟨rfl, -⟩
    rfl
  injective := by
    rintro i j k ⟨rfl, -⟩ ⟨rfl, -⟩
    rfl
  vars := by
    rintro i _ ⟨rfl, hi⟩ key -
    rw [h.table (hground i hi).1, h'.table (hground i hi).1]
  binds := by
    rintro i _ ⟨rfl, hi⟩ key -
    rw [h.table (hground i hi).1, h'.table (hground i hi).1]
    have hbound := (hground i hi).2 key
    generalize (w.table i).futures.get? key = future at hbound
    cases future with
    | none => exact .none
    | some future => exact .some ⟨rfl, hbound future rfl⟩
  futures_lt := by
    rintro i _ ⟨rfl, hi⟩
    exact ⟨lt_of_later h.futures hi, lt_of_later h'.futures hi⟩
  answers := by
    rintro i _ ⟨rfl, hi⟩
    rw [answer?_of_later h.futures hi, answer?_of_later h'.futures hi]
  reserved := False.elim

end World

namespace Comparison

open Step RunState Runner

variable {c : Comparison σ} {π ρ τ : Pairing} {s s' v v' : RunState σ}

/-- Two runs that have reported and recorded the same, in worlds that mirror each other. -/
structure Even (c : Comparison σ) (π : Pairing) (s s' : RunState σ) : Prop where
  world : c.Mirrors π s.world s'.world
  events : s.events.toList = s'.events.toList
  recorded : s.world.recorded.toList = s'.world.recorded.toList

theorem Even.push (h : c.Even π s s') (e : Event) : c.Even π (s.push e) (s'.push e) := by
  refine ⟨h.world, ?_, h.recorded⟩
  change (s.events.push e).toList = (s'.events.push e).toList
  rw [Array.toList_push, Array.toList_push, h.events]

theorem Even.announceIf (h : c.Even π s s') (ran started : Bool) :
    c.Even π (s.announceIf ran started) (s'.announceIf ran started) := by
  unfold RunState.announceIf
  split
  · exact h.push _
  · exact h

theorem Even.logs (h : c.Even π s s') {P : Part} (hlogs : s.Logs P v) (hlogs' : s'.Logs P v')
    (hworld : c.Mirrors ρ v.world v'.world) : c.Even ρ v v' where
  world := hworld
  events := by rw [hlogs.events, hlogs'.events, h.events]
  recorded := by rw [hlogs.recorded, hlogs'.recorded, h.recorded]

/-- From runs that are even the parts end alike, with answers that are related, and the
runs are even again. -/
structure Evenly (c : Comparison σ) (R : Pairing → α → β → Prop) (π : Pairing) (x : Step σ α)
    (y : Step σ β) : Prop where
  ends : ∀ {ρ s s'}, π ≤ ρ → c.Even ρ s s' → ∃ τ, ρ ≤ τ ∧
    c.Even τ (x.run.run s).2 (y.run.run s').2 ∧
    Outcomes (R τ) (x.run.run s).1 (y.run.run s').1

namespace Evenly

variable {R : Pairing → α → β → Prop} {Q : Pairing → γ → δ → Prop} {x : Step σ α} {y : Step σ β}

theorem pure {a : α} {b : β} (h : ∀ {ρ}, π ≤ ρ → R ρ a b) :
    c.Evenly R π (pure a) (pure b) :=
  ⟨fun {ρ _ _} hle heven => ⟨ρ, Pairing.le_refl ρ, heven, .ok (h hle)⟩⟩

theorem emit (e : Event) : c.Evenly (fun _ _ _ => True) π (emit e) (emit e) :=
  ⟨fun {ρ _ _} _ heven => ⟨ρ, Pairing.le_refl ρ, heven.push e, .ok trivial⟩⟩

theorem bind {f : α → Step σ γ} {g : β → Step σ δ} (hxy : c.Evenly R π x y)
    (hfg : ∀ {ρ a b}, π ≤ ρ → R ρ a b → c.Evenly Q ρ (f a) (g b)) :
    c.Evenly Q π (x >>= f) (y >>= g) := by
  refine ⟨fun {ρ s s'} hle heven => ?_⟩
  obtain ⟨τ, hτ, hnext, houtcomes⟩ := hxy.ends hle heven
  rcases hrun : x.run.run s with ⟨o, v⟩
  rcases hrun' : y.run.run s' with ⟨o', v'⟩
  rw [hrun, hrun'] at hnext houtcomes
  cases houtcomes with
  | stop e =>
    rw [run_bind_of_error hrun, run_bind_of_error hrun']
    exact ⟨τ, hτ, hnext, .stop e⟩
  | ok h =>
    rw [run_bind_of_ok hrun, run_bind_of_ok hrun']
    obtain ⟨υ, hυ, hend⟩ := (hfg (Pairing.le_trans hle hτ) h).ends (Pairing.le_refl τ) hnext
    exact ⟨υ, Pairing.le_trans hτ hυ, hend⟩

theorem imp {Q : Pairing → α → β → Prop} (h : c.Evenly R π x y)
    (hQ : ∀ ρ a b, R ρ a b → Q ρ a b) : c.Evenly Q π x y := by
  refine ⟨fun hle heven => ?_⟩
  obtain ⟨τ, hτ, hend, houtcomes⟩ := h.ends hle heven
  exact ⟨τ, hτ, hend, houtcomes.imp (hQ τ)⟩

theorem of_phase (h : ∀ {ρ s s'}, π ≤ ρ → c.Mirrors ρ s.world s'.world →
    c.PhaseMet R ρ s s' (x.run.run s) (y.run.run s')) : c.Evenly R π x y := by
  refine ⟨fun {ρ s s'} hle heven => ?_⟩
  obtain ⟨τ, P, hτ, hworld, hlogs, hlogs', houtcomes⟩ := h hle heven.world
  exact ⟨τ, hτ, heven.logs hlogs hlogs' hworld, houtcomes⟩

section

variable {P : Pairing → α → β → Prop} {as : List α} {bs : List β}
  (hP : ∀ {ρ τ a b}, ρ ≤ τ → P ρ a b → P τ a b)

include hP

theorem mapM {f : α → Step σ γ} {g : β → Step σ δ}
    (hQ : ∀ {ρ τ a b}, ρ ≤ τ → Q ρ a b → Q τ a b) (h : List.Forall₂ (P π) as bs)
    (hfg : ∀ {ρ a b}, π ≤ ρ → P ρ a b → c.Evenly Q ρ (f a) (g b)) :
    c.Evenly (fun ρ => List.Forall₂ (Q ρ)) π (as.mapM f) (bs.mapM g) := by
  induction as generalizing bs π with
  | nil =>
    cases h
    exact .pure fun _ => .nil
  | cons a as ih =>
    rcases h with _ | ⟨hab, hrest⟩
    rw [List.mapM_cons, List.mapM_cons]
    apply (hfg (Pairing.le_refl π) hab).bind
    intro ρ c d hρ hcd
    apply (ih (hrest.imp fun _ _ => hP hρ) fun hle => hfg (Pairing.le_trans hρ hle)).bind
    exact fun hτ hcds => .pure fun hle => .cons (hQ (Pairing.le_trans hτ hle) hcd)
      (hcds.imp fun _ _ => hQ hle)

theorem foldlM {f : γ → α → Step σ γ} {g : γ → β → Step σ γ} (z : γ)
    (h : List.Forall₂ (P π) as bs)
    (hfg : ∀ {ρ z a b}, π ≤ ρ → P ρ a b → c.Evenly (fun _ => Eq) ρ (f z a) (g z b)) :
    c.Evenly (fun _ => Eq) π (as.foldlM f z) (bs.foldlM g z) := by
  induction as generalizing bs π z with
  | nil =>
    cases h
    exact .pure fun _ => rfl
  | cons a as ih =>
    rcases h with _ | ⟨hab, hrest⟩
    rw [List.foldlM_cons, List.foldlM_cons]
    apply (hfg (Pairing.le_refl π) hab).bind
    rintro ρ z _ hρ rfl
    exact ih z (hrest.imp fun _ _ => hP hρ) fun hle => hfg (Pairing.le_trans hρ hle)

end

end Evenly

variable {p : Play} {T : Task → Prop}

section

variable (hfair : ∀ L, c.Fair L)

include hfair

theorem evenly_runPlay (hshares : c.Shares p p T) (hT : ∀ t ∈ p.tasks, T t)
    (hroot : Scope.Mirrors π c.setup.root c.setup.root) :
    c.Evenly (PlayState.Mirrors p p) π (runPlay c.setup p) (runPlay c.setup p) :=
  .of_phase fun hle h => runPlay_meets hshares rfl hT rfl (hroot.mono hle) h (hfair _)

theorem evenly_runHandlers (hshares : c.Shares p p T) (hT : ∀ t ∈ p.handlers, T t)
    (hroot : Scope.Mirrors π c.setup.root c.setup.root) (started : Bool) {st st' : PlayState}
    (hst : st.Mirrors p p π st') (hdrained : st.deferred = []) :
    c.Evenly (fun _ => Eq) π (runHandlers c.setup started st)
      (runHandlers c.setup started st') := by
  refine ⟨fun {ρ s s'} hle heven => ?_⟩
  obtain ⟨ran, τ, P, hτ, hworld, hlogs, hlogs', houtcomes, -⟩ :=
    runHandlers_meets hshares rfl hT started started (hroot.mono hle) heven.world (hst.mono hle)
      hdrained (hfair _)
  refine ⟨τ, hτ, (heven.announceIf ran started).logs hlogs hlogs' hworld, ?_⟩
  generalize ((runHandlers c.setup started st).run.run s).1 = o at houtcomes ⊢
  generalize ((runHandlers c.setup started st').run.run s').1 = o' at houtcomes ⊢
  cases houtcomes with
  | ok => exact .ok rfl
  | stop e => exact .stop e

end

theorem evenly_drainPlay {st st' : PlayState} (hst : st.Mirrors p p π st') :
    c.Evenly (fun ρ st st' => st.Mirrors p p ρ st' ∧ st.deferred = []) π
      (drainPlay c.setup st) (drainPlay c.setup st') :=
  .of_phase fun hle h => drainPlay_meets rfl h (hst.mono hle)

/-- The states of one of the plays in both runs. -/
def OfPlay (plays : List Play) (π : Pairing) (st st' : PlayState) : Prop :=
  ∃ p ∈ plays, st.Mirrors p p π st'

theorem OfPlay.mono {plays : List Play} {st st' : PlayState} (hle : π ≤ ρ)
    (h : OfPlay plays π st st') : OfPlay plays ρ st st' :=
  h.imp fun _ ⟨hp, hst⟩ => ⟨hp, hst.mono hle⟩

/-- The phases of a run go alike in both runs. -/
theorem evenly_runPhases (hfair : ∀ L, c.Fair L) {plays : List Play}
    (hshares : ∀ p ∈ plays, c.Shares p p (· ∈ p.declared))
    (hroot : Scope.Mirrors π c.setup.root c.setup.root) :
    c.Evenly (fun _ _ _ => True) π (runPhases c.setup plays) (runPhases c.setup plays) := by
  have hplays : List.Forall₂ (fun p q => p ∈ plays ∧ p = q) plays plays :=
    List.forall₂_same.mpr fun p hp => ⟨hp, rfl⟩
  have htasks {ρ : Pairing} (hle : π ≤ ρ) : c.Evenly (fun τ => List.Forall₂ (OfPlay plays τ)) ρ
      (plays.mapM (runPlay c.setup)) (plays.mapM (runPlay c.setup)) := by
    refine .mapM (P := fun _ p q => p ∈ plays ∧ p = q) (fun _ h => h) OfPlay.mono hplays ?_
    rintro τ p _ hτ ⟨hp, rfl⟩
    have hplay : c.Evenly (PlayState.Mirrors p p) τ (runPlay c.setup p) (runPlay c.setup p) :=
      evenly_runPlay hfair (hshares p hp)
        (fun t ht => List.mem_append_left _ (List.mem_append_left _ ht))
        (hroot.mono (Pairing.le_trans hle hτ))
    exact hplay.imp fun _ _ _ hst => ⟨p, hp, hst⟩
  have hdrains {ρ : Pairing} {sts sts' : List PlayState}
      (hsts : List.Forall₂ (OfPlay plays ρ) sts sts') :
      c.Evenly (fun τ => List.Forall₂ fun st st' => OfPlay plays τ st st' ∧ st.deferred = []) ρ
        (sts.mapM (drainPlay c.setup)) (sts'.mapM (drainPlay c.setup)) := by
    refine .mapM (P := OfPlay plays) OfPlay.mono (fun hle h => ⟨h.1.mono hle, h.2⟩) hsts ?_
    rintro τ st st' - ⟨p, hp, hst⟩
    exact (evenly_drainPlay hst).imp fun _ _ _ hst => ⟨⟨p, hp, hst.1⟩, hst.2⟩
  have hhandlers {ρ : Pairing} {sts sts' : List PlayState} (hle : π ≤ ρ)
      (hsts : List.Forall₂ (fun st st' => OfPlay plays ρ st st' ∧ st.deferred = []) sts sts') :
      c.Evenly (fun _ => Eq) ρ (sts.foldlM (runHandlers c.setup) false)
        (sts'.foldlM (runHandlers c.setup) false) := by
    refine .foldlM (P := fun τ st st' => OfPlay plays τ st st' ∧ st.deferred = [])
      (fun hle h => ⟨h.1.mono hle, h.2⟩) false hsts ?_
    rintro τ started st st' hτ ⟨⟨p, hp, hst⟩, hdrained⟩
    exact evenly_runHandlers hfair (hshares p hp)
      (fun t ht => List.mem_append_left _ (List.mem_append_right _ ht))
      (hroot.mono (Pairing.le_trans hle hτ)) started hst hdrained
  unfold runPhases
  apply (Evenly.emit .startTasks).bind
  intro ρ₁ _ _ h₁ _
  apply (htasks h₁).bind
  intro ρ₂ sts sts' h₂ hsts
  apply (Evenly.emit .finishTasks).bind
  intro ρ₃ _ _ h₃ _
  apply (hdrains (hsts.imp fun _ _ => OfPlay.mono h₃)).bind
  intro ρ₄ sts sts' h₄ hsts
  have hle : π ≤ ρ₄ :=
    Pairing.le_trans h₁ (Pairing.le_trans h₂ (Pairing.le_trans h₃ h₄))
  apply (hhandlers hle hsts).bind
  rintro ρ₅ started _ h₅ rfl
  cases started with
  | false => exact .emit .finishAll
  | true => exact (Evenly.emit .finishHandlers).bind fun _ _ => .emit .finishAll

end Comparison

namespace Runner

open Step RunState

variable {setup : Setup σ}

/-- What the commands of a task come to depends on their parameters and on what they read
alone, not on the surroundings. -/
def Determined (setup : Setup σ) (t : Task) : Prop :=
  ∀ params command, setup.registry.bind t.command params = .ok command →
    command.Steady setup.host (fun _ _ => True) t t

/-- Runs in any surroundings are compared, and nothing is hidden. -/
def anywhere (setup : Setup σ) : Comparison σ where
  setup := setup
  hidden _ := False
  hosts _ _ := True

theorem fair_anywhere (setup : Setup σ) (L : List Event) : (anywhere setup).Fair L :=
  fun _ _ _ _ _ _ _ _ _ => id

theorem shares_anywhere {p : Play} (h : ∀ t ∈ p.declared, Determined setup t) :
    (anywhere setup).Shares p p (· ∈ p.declared) where
  name := rfl
  module _ _ := rfl
  sub _ _ _ hsub := Play.subtasks_subset_declared hsub
  unread _ _ _ _ := id
  steady := h

/-- The report of a run that ends so. -/
def concluded : Except Stop Unit × RunState σ → Report σ
  | (.ok (), s) => { error := none, tooDeep := false, events := s.events.toList ++ [.ended none],
                     world := s.world }
  | (.error (.failed e), s) => { error := some e, tooDeep := false,
                                 events := s.events.toList ++ [.ended (some e)], world := s.world }
  | (.error .tooDeep, s) => { error := none, tooDeep := true, events := s.events.toList,
                              world := s.world }

theorem run_eq (setup : Setup σ) (book : Playbook) (world : World σ) :
    run setup book world =
      concluded ((runPhases setup book.plays).run.run (RunState.initial world)) := by
  unfold run
  rcases hrun : (runPhases setup book.plays).run.run (RunState.initial world) with ⟨o, s⟩
  unfold RunState.initial at hrun
  dsimp only
  rw [hrun]
  rcases o with (e | _) | _ <;> rfl

theorem world_concluded (r : Except Stop Unit × RunState σ) : (concluded r).world = r.2.world := by
  rcases r with ⟨(e | _) | _, s⟩ <;> rfl

theorem exists_run_of_ok {book : Playbook} {world : World σ}
    (herror : (run setup book world).error = none)
    (hdepth : (run setup book world).tooDeep = false) :
    ∃ v, (runPhases setup book.plays).run.run (RunState.initial world) = (.ok (), v) := by
  rw [run_eq] at herror hdepth
  rcases hrun : (runPhases setup book.plays).run.run (RunState.initial world) with ⟨(e | _) | _, v⟩
  · rw [hrun] at herror
    cases herror
  · rw [hrun] at hdepth
    cases hdepth
  · exact ⟨v, rfl⟩

/-- If a run ends well then each of its phases does. -/
theorem exists_phases {plays : List Play} {s v : RunState σ}
    (hrun : (runPhases setup plays).run.run s = (.ok (), v)) :
    ∃ sts u sts' u' started w,
      (plays.mapM (runPlay setup)).run.run (s.push .startTasks) = (.ok sts, u) ∧
      (sts.mapM (drainPlay setup)).run.run (u.push .finishTasks) = (.ok sts', u') ∧
      (sts'.foldlM (runHandlers setup) false).run.run u' = (.ok started, w) ∧
      v = (if started then w.push .finishHandlers else w).push .finishAll := by
  obtain ⟨_, _, hstart, hrun⟩ := run_bind_ok hrun
  cases hstart
  obtain ⟨sts, u, hplays, hrun⟩ := run_bind_ok hrun
  obtain ⟨_, _, hfinish, hrun⟩ := run_bind_ok hrun
  cases hfinish
  obtain ⟨sts', u', hdrains, hrun⟩ := run_bind_ok hrun
  obtain ⟨started, w, hhandlers, hend⟩ := run_bind_ok hrun
  refine ⟨sts, u, sts', u', started, w, hplays, hdrains, hhandlers, ?_⟩
  cases started <;> cases hend <;> rfl

/-- A run only adds tables and futures to the world. -/
theorem run_kept (setup : Setup σ) (book : Playbook) {world : World σ} (hworld : world.Settled) :
    (run setup book world).world.Settled ∧ world.Kept (run setup book world).world := by
  have hkeeps : Keeps world.tables.size (RunState.initial world)
      ((runPhases setup book.plays).run.run (RunState.initial world)).2 :=
    runPhases_keeps book.plays (s := RunState.initial world) (hworld.of_futures rfl)
      (Nat.le_refl _)
  rw [run_eq, world_concluded]
  exact ⟨hkeeps.settled, hkeeps.spares.size_le, hkeeps.spares.tables, hkeeps.spares.futures⟩

theorem iterate_kept (setup : Setup σ) (book : Playbook) {world : World σ}
    (hworld : world.Settled) (n : Nat) :
    let later := (fun w => (run setup book w).world)^[n] world
    later.Settled ∧ world.Kept later := by
  induction n with
  | zero => exact ⟨hworld, .refl world⟩
  | succ n ih =>
    rw [Function.iterate_succ_apply']
    obtain ⟨hsettled, hkept⟩ := run_kept setup book ih.1
    exact ⟨hsettled, ih.2.trans hkept⟩

/-- Two runs have reported and recorded the same. -/
structure Report.Alike (r r' : Report σ) : Prop where
  events : r.events = r'.events
  error : r.error = r'.error
  tooDeep : r.tooDeep = r'.tooDeep
  recorded : r.world.recorded = r'.world.recorded

theorem Report.Alike.of_even {c : Comparison σ} {π : Pairing}
    {r r' : Except Stop Unit × RunState σ} (h : c.Even π r.2 r'.2)
    (ho : Outcomes (fun _ _ => True) r.1 r'.1) : (concluded r).Alike (concluded r') := by
  obtain ⟨o, s⟩ := r
  obtain ⟨o', s'⟩ := r'
  have hrecorded : s.world.recorded = s'.world.recorded := Array.toList_inj.mp h.recorded
  have hevents (rest : List Event) : s.events.toList ++ rest = s'.events.toList ++ rest :=
    congrArg (· ++ rest) h.events
  cases ho with
  | ok => exact ⟨hevents _, rfl, rfl, hrecorded⟩
  | stop e =>
    cases e with
    | failed e => exact ⟨hevents _, rfl, rfl, hrecorded⟩
    | tooDeep => exact ⟨h.events, rfl, rfl, hrecorded⟩

theorem runs_alike {book : Playbook} {world v v' : World σ}
    (hroot : setup.root.Grounded world)
    (hdetermined : ∀ p ∈ book.plays, ∀ t ∈ p.declared, Determined setup t)
    (hsettled : v.Settled) (hsettled' : v'.Settled) (hv : world.Kept v) (hv' : world.Kept v') :
    (run setup book v).Alike (run setup book v') := by
  let π : Pairing := .outside setup.root world.futures.size
  have hworld : (anywhere setup).Mirrors π v v' := hv.mirrors hroot hv' hsettled hsettled' trivial
  have hstart : (anywhere setup).Even π (RunState.initial v) (RunState.initial v') :=
    ⟨hworld.of_eq rfl rfl rfl rfl rfl rfl, rfl, rfl⟩
  obtain ⟨τ, -, heven, houtcomes⟩ := (Comparison.evenly_runPhases (c := anywhere setup)
    (fair_anywhere setup) (fun p hp => shares_anywhere (hdetermined p hp))
    (Scope.mirrors_outside setup.root _)).ends (Pairing.le_refl π) hstart
  rw [run_eq, run_eq]
  exact .of_even heven houtcomes

theorem exists_binder {registry : Registry} {name : String} {params : Vars} {command : Command}
    (h : registry.bind name params = .ok command) :
    ∃ binder, Dict.get? registry name = some binder ∧ binder params = .ok command := by
  unfold Registry.bind at h
  split at h
  next => cases h
  next binder hbinder =>
    refine ⟨binder, hbinder, ?_⟩
    split at h
    next hcommand =>
      cases h
      exact hcommand
    next => cases h

/-- The built-in commands that start no process are determined. -/
theorem determined_builtin {t : Task} (hregistry : setup.registry = Registry.builtins)
    (ht : t.command ∈ ["assert", "debug", "set_fact"]) : Determined setup t := by
  intro params command hbind
  obtain ⟨binder, hbinder, hcommand⟩ := exists_binder hbind
  rw [hregistry] at hbinder
  simp only [List.mem_cons, List.not_mem_nil, or_false] at ht
  rcases ht with ht | ht | ht <;> rw [ht] at hbinder
  · obtain rfl : Command.bindCheck = binder := Option.some.inj hbinder
    unfold Command.bindCheck at hcommand
    split at hcommand
    · cases hcommand
    · split at hcommand <;> cases hcommand
      trivial
  · obtain rfl : Command.bindDebug = binder := Option.some.inj hbinder
    unfold Command.bindDebug at hcommand
    cases hread : Parameter.readVars Command.debugParameters params <;> rw [hread] at hcommand <;>
      cases hcommand
    trivial
  · obtain rfl : Command.bindSetFact = binder := Option.some.inj hbinder
    unfold Command.bindSetFact at hcommand
    split at hcommand <;> cases hcommand <;> trivial

/-- The built-in commands over one table outside the plays. -/
def reciting : Setup Unit where
  host :=
    { baseDir := ""
      pathExists := fun _ _ => false
      runProcess := fun _ _ s => (.notStarted "", s)
      runExternal := fun _ _ _ s => (.ok .ok, s) }
  registry := Registry.builtins
  root := [.table 0]

/-- A task overrides a variable of the root and notifies a handler, and another reads
the variable and registers a result. -/
def recital : Playbook where
  plays := [{
    name := "p"
    tasks := [{ name := "t", command := "set_fact", vars := [("who", .string "you")],
                notify := ["h"] },
      { name := "u", command := "debug", vars := [("var", .string "who")],
        register := some "seen" }]
    handlers := [{ name := "h", command := "debug", vars := [("msg", .string "done")] }] }]

def greeted : World Unit := { tables := #[{ vars := [("who", .string "world")] }], host := () }

theorem settled_greeted : greeted.Settled := by
  intro i f job hf
  cases hf

theorem grounded_greeted : reciting.root.Grounded greeted := by
  intro i hi
  obtain rfl : i = 0 := by simpa [reciting] using hi
  exact ⟨Nat.zero_lt_one, fun key future hbound => by cases hbound⟩

end Runner

end PlaybookRunner
