import Mathlib.Data.List.Infix
import PlaybookRunner.Proofs.Ledger
import PlaybookRunner.Proofs.Unwinding
import PlaybookRunner.Report.Record

/-!
# Recorded results

A recorder settles the latest open entry of a like task, wherever the result comes
from. As long as the tasks that wait after their dispatch are unlike each other, that
is the entry of the invocation that has finished. Of like tasks that wait together
the recorder takes the latest first, while the run awaits the earliest first.
-/

namespace PlaybookRunner

open Transcript

theorem Task.isDeferred_eq_of_same {a b : Task} (h : a.same b = true) :
    a.isDeferred = b.isDeferred := by
  simp only [same, Bool.and_eq_true, beq_iff_eq] at h
  obtain ⟨⟨-, hfuture⟩, hasync⟩ := h
  rw [isDeferred, isDeferred, hfuture, hasync]

/-- The entry shows the invocation with its result. -/
structure TaskEntry.Shows (e : TaskEntry) (v : Invocation) : Prop where
  name : e.name = v.name
  command : e.command = v.task.command
  args : e.args = v.args
  vars : e.vars = v.params
  result : e.result = v.result

namespace Ledger

/-- No two invocations that wait are of like tasks. -/
def Unlike (g : Ledger) : Prop := g.waiting.Pairwise fun a b => b.1.same a.1 = false

instance : DecidablePred Unlike := fun g =>
  inferInstanceAs (Decidable (g.waiting.Pairwise fun a b => b.1.same a.1 = false))

/-- An open invocation of a deferred task is the latest, and finishes with the next
event. -/
def Pressing (g : Ledger) (L : List Event) : Prop :=
  ∀ a ∈ g.opened, a.1.isDeferred = true →
    a.2 + 1 = g.invocations.length ∧ ∃ result rest, L = .finishTask a.1 result :: rest

theorem length_step_le (g : Ledger) (e : Event) :
    (g.step e).invocations.length ≤ g.invocations.length + (started [e]).length := by
  cases e with
  | startTask t name args params => simp [step, start, started]
  | finishTask t result =>
    cases result with
    | none =>
      simp only [step, dispatch]
      split <;> exact Nat.le_add_right _ _
    | some result =>
      simp only [step, finish]
      split <;> simp [settle]
  | _ => simp [step]

end Ledger

namespace Recorder

variable {setting : Setting} {r : Recorder} {g : Ledger} {t : Task} {i : Nat}

/-- The recorder agrees with the ledger: its entries show the invocations, and those
that have no result are pending, the latest first. -/
structure Agrees (r : Recorder) (g : Ledger) : Prop where
  shows : List.Forall₂ TaskEntry.Shows r.record.tasks.toList g.invocations
  pending : r.pending.Perm (g.opened ++ g.waiting)
  latest : r.pending.Pairwise fun a b => b.2 < a.2
  nested : g.opened.Pairwise fun a b => b.2 < a.2
  bounded : ∀ a ∈ r.pending, a.2 < g.invocations.length
  deferred : ∀ a ∈ g.waiting, a.1.isDeferred = true
  same_self : ∀ a ∈ r.pending, a.1.same a.1 = true

theorem reporter_run {ω : Type} (setting : Setting) (L : List Event) (r : Recorder) :
    ((reporter setting : Reporter ω Recorder).run L r).2 = L.foldl (step setting) r := by
  induction L generalizing r with
  | nil => rfl
  | cons e L ih => exact ih (r.step setting e)

theorem takeFirst_append {α : Type} {p : α → Bool} {before after : List α} {a : α}
    (hbefore : ∀ b ∈ before, p b = false) (ha : p a = true) :
    takeFirst p (before ++ a :: after) = some (a, before ++ after) := by
  induction before with
  | nil => simp [takeFirst, ha]
  | cons b before ih =>
    obtain ⟨hb, hbefore⟩ := List.forall_mem_cons.mp hbefore
    simp [takeFirst, hb, ih hbefore]

theorem forall₂_modify {α β : Type} {R : α → β → Prop} {f : α → α} {f' : β → β} {as : List α}
    {bs : List β} (hf : ∀ a b, R a b → R (f a) (f' b)) (h : List.Forall₂ R as bs) (i : Nat) :
    List.Forall₂ R (as.modify i f) (bs.modify i f') := by
  induction h generalizing i with
  | nil => simp
  | cons hab hrest ih =>
    cases i with
    | zero => exact .cons (hf _ _ hab) hrest
    | succ i => exact .cons hab (ih i)

namespace Agrees

theorem fresh {record : RunRecord} (h : record.tasks = #[]) :
    Agrees { record } {} := by
  refine ⟨by simp [h], .nil, .nil, .nil, ?_, ?_, ?_⟩ <;> simp

theorem size_eq (h : r.Agrees g) : r.record.tasks.size = g.invocations.length := by
  rw [← Array.length_toList, h.shows.length_eq]

theorem start (h : r.Agrees g) (hself : t.same t = true)
    (hroom : g.invocations.length < entryLimit) (name args : String) (params : Vars) :
    (r.open_ t name args params).Agrees (g.start { task := t, name, args, params }) := by
  have hopen : r.open_ t name args params =
      { record := { r.record with
          taskCount := r.record.taskCount + 1
          tasks := r.record.tasks.push { name, command := t.command, args, vars := params } }
        pending := (t, g.invocations.length) :: r.pending } := by
    rw [← h.size_eq] at hroom ⊢
    rw [open_, if_pos hroom]
  have hlength : (g.invocations ++ [({ task := t, name, args, params } : Invocation)]).length =
      g.invocations.length + 1 := List.length_append
  rw [hopen]
  refine ⟨?_, h.pending.cons _, ?_, ?_, ?_, h.deferred, ?_⟩
  · rw [Array.toList_push]
    exact List.rel_append h.shows (.cons ⟨rfl, rfl, rfl, rfl, rfl⟩ .nil)
  · exact .cons h.bounded h.latest
  · exact .cons (fun a ha => h.bounded a (h.pending.mem_iff.mpr (List.mem_append_left _ ha)))
      h.nested
  · refine List.forall_mem_cons.mpr ⟨?_, fun a ha => ?_⟩
    · exact hlength ▸ Nat.lt_succ_self _
    · exact hlength ▸ Nat.lt_succ_of_lt (h.bounded a ha)
  · exact List.forall_mem_cons.mpr ⟨hself, h.same_self⟩

theorem dispatch {rest : List (Task × Nat)} (h : r.Agrees g) (hopened : g.opened = (t, i) :: rest)
    (ht : t.isDeferred = true) : r.Agrees g.dispatch := by
  have hdispatch : g.dispatch = { g with opened := rest, waiting := g.waiting ++ [(t, i)] } := by
    rw [Ledger.dispatch, hopened]
  have hpending := h.pending
  have hnested := h.nested
  rw [hopened] at hpending hnested
  rw [hdispatch]
  refine ⟨h.shows, ?_, h.latest, hnested.of_cons, h.bounded, ?_, h.same_self⟩
  · refine hpending.trans ?_
    rw [← List.append_assoc]
    exact (List.perm_append_singleton _ _).symm
  · exact List.forall_mem_append.mpr ⟨h.deferred, List.forall_mem_singleton.mpr ht⟩

/-- A finished task settles the entry of its own invocation, if the pending entries
above it are of other tasks. -/
theorem settle (h : r.Agrees g) (os ws : List (Task × Nat))
    (hothers : (g.opened ++ g.waiting).Perm ((t, i) :: (os ++ ws)))
    (hos : os.Sublist g.opened) (hws : ws.Sublist g.waiting)
    (habove : ∀ a ∈ g.opened ++ g.waiting, i < a.2 → a.1.same t = false) (result : TaskResult) :
    (r.settle setting t result).Agrees { g.settle i result with opened := os, waiting := ws } := by
  have hmem : (t, i) ∈ r.pending :=
    h.pending.mem_iff.mpr (hothers.mem_iff.mpr List.mem_cons_self)
  have hself : t.same t = true := h.same_self (t, i) hmem
  obtain ⟨before, after, hsplit⟩ := List.append_of_mem hmem
  have hsublist : (before ++ after).Sublist r.pending := by
    rw [hsplit]
    exact (List.sublist_cons_self _ _).append_left before
  have hbefore : ∀ a ∈ before, a.1.same t = false := by
    intro a ha
    have hlatest := h.latest
    rw [hsplit, List.pairwise_append] at hlatest
    have ha' : a ∈ r.pending := hsplit ▸ List.mem_append_left _ ha
    exact habove a (h.pending.mem_iff.mp ha') (hlatest.2.2 a ha _ List.mem_cons_self)
  have hpending : (before ++ after).Perm (os ++ ws) := by
    have hall := h.pending.trans hothers
    rw [hsplit] at hall
    exact (List.perm_middle.symm.trans hall).cons_inv
  have htake : takeFirst (fun a => a.1.same t) r.pending = some ((t, i), before ++ after) := by
    rw [hsplit]
    exact takeFirst_append hbefore hself
  have hlength : (g.settle i result).invocations.length = g.invocations.length :=
    List.length_modify _ _ _
  unfold Recorder.settle
  split
  next hnone => cases htake.symm.trans hnone
  next hsome =>
    cases htake.symm.trans hsome
    refine ⟨?_, hpending, h.latest.sublist hsublist, h.nested.sublist hos, fun a ha => ?_,
      fun a ha => h.deferred a (hws.subset ha), fun a ha => h.same_self a (hsublist.subset ha)⟩
    · rw [Array.toList_modify]
      exact forall₂_modify (fun e v hev => ⟨hev.name, hev.command, hev.args, hev.vars, rfl⟩)
        h.shows i
    · exact hlength ▸ h.bounded a (hsublist.subset ha)

/-- The finish of a task settles the same invocation in the record and in the ledger. -/
theorem finish {result : TaskResult} {L : List Event} (h : r.Agrees g)
    (hfits : g.Fits (.finishTask t (some result)))
    (hpressing : g.Pressing (.finishTask t (some result) :: L)) (hunlike : g.Unlike) :
    (r.settle setting t result).Agrees (g.finish result) := by
  rcases hfits with ⟨i, rest, hopened⟩ | ⟨hopened, i, rest, hwaiting⟩
  · have hnested := h.nested
    rw [hopened] at hnested
    rw [Ledger.finish_of_opened hopened]
    refine h.settle rest g.waiting (by rw [hopened]; exact .refl _)
      (hopened ▸ List.sublist_cons_self _ _) (.refl _) (fun a ha hi => ?_) result
    -- What stands above the innermost open invocation waits, and only deferred tasks do.
    have hwaits : a ∈ g.waiting := by
      rw [hopened] at ha
      rcases List.mem_append.mp ha with ha | ha
      · rcases List.mem_cons.mp ha with rfl | ha
        · exact absurd hi (Nat.lt_irrefl _)
        · exact absurd ((List.pairwise_cons.mp hnested).1 a ha) (Nat.lt_asymm hi)
      · exact ha
    rw [Bool.eq_false_iff]
    intro hsame
    have ht : t.isDeferred = true :=
      (Task.isDeferred_eq_of_same hsame).symm.trans (h.deferred a hwaits)
    obtain ⟨hlast, -⟩ := hpressing (t, i) (hopened ▸ List.mem_cons_self) ht
    have hbound := h.bounded a (h.pending.mem_iff.mpr ha)
    dsimp only at hlast
    omega
  · rw [Ledger.finish_of_waiting hopened hwaiting]
    refine h.settle g.opened rest (by rw [hopened, hwaiting]; exact .refl _) (.refl _)
      (hwaiting ▸ List.sublist_cons_self _ _) (fun a ha hi => ?_) result
    rw [hopened, hwaiting, List.nil_append] at ha
    unfold Ledger.Unlike at hunlike
    rw [hwaiting] at hunlike
    rcases List.mem_cons.mp ha with rfl | ha
    · exact absurd hi (Nat.lt_irrefl _)
    · exact (List.pairwise_cons.mp hunlike).1 a ha

/-- Of the open invocations only the innermost can be of a deferred task. -/
theorem not_isDeferred_of_mem {rest : List (Task × Nat)} {L : List Event} (h : r.Agrees g)
    (hpressing : g.Pressing L) (hopened : g.opened = (t, i) :: rest) {a : Task × Nat}
    (ha : a ∈ rest) : a.1.isDeferred = false := by
  rw [Bool.eq_false_iff]
  intro hdeferred
  obtain ⟨hlast, -⟩ := hpressing a (hopened ▸ List.mem_cons_of_mem _ ha) hdeferred
  have hnested := h.nested
  rw [hopened] at hnested
  have hinner : a.2 < i := (List.pairwise_cons.mp hnested).1 a ha
  have hmem : (t, i) ∈ r.pending :=
    h.pending.mem_iff.mpr (List.mem_append_left _ (hopened ▸ List.mem_cons_self))
  have hbound : i < g.invocations.length := h.bounded _ hmem
  omega

theorem pressing {e : Event} {L : List Event} (h : r.Agrees g) (hfits : g.Fits e)
    (hprompt : Prompt (e :: L)) (hpressing : g.Pressing (e :: L)) : (g.step e).Pressing L := by
  have hfinish {t : Task} {i : Nat} {rest : List (Task × Nat)} (hopened : g.opened = (t, i) :: rest)
      {g' : Ledger} (hg' : g'.opened = rest) : g'.Pressing L := by
    intro a ha hdeferred
    rw [hg'] at ha
    rw [h.not_isDeferred_of_mem hpressing hopened ha] at hdeferred
    cases hdeferred
  -- An event that is not a finish finds no deferred task open.
  have hother (he : ∀ t result, e ≠ .finishTask t result) {a : Task × Nat} (ha : a ∈ g.opened)
      (hdeferred : a.1.isDeferred = true) : False := by
    obtain ⟨-, result, rest, hL⟩ := hpressing a ha hdeferred
    exact he _ _ (List.cons.inj hL).1
  cases e with
  | startTasks => exact fun a ha => absurd ha List.not_mem_nil
  | startTask t name args params =>
    intro a ha hdeferred
    rcases List.mem_cons.mp ha with rfl | ha
    · exact ⟨by simp [Ledger.step, Ledger.start], hprompt.1 hdeferred⟩
    · exact (hother (by simp) ha hdeferred).elim
  | finishTask t result =>
    cases result with
    | none =>
      obtain ⟨-, i, rest, hopened⟩ := hfits
      exact hfinish hopened (by rw [Ledger.step, Ledger.dispatch, hopened])
    | some result =>
      rcases hfits with ⟨i, rest, hopened⟩ | ⟨hopened, i, rest, hwaiting⟩
      · exact hfinish hopened (by rw [Ledger.step, Ledger.finish_of_opened hopened])
      · intro a ha
        rw [Ledger.step, Ledger.finish_of_waiting hopened hwaiting] at ha
        exact absurd (hopened ▸ ha) List.not_mem_nil
  | _ => exact fun a ha hdeferred => (hother (by simp) ha hdeferred).elim

theorem step {e : Event} {L : List Event} (h : r.Agrees g) (hfits : g.Fits e)
    (hpressing : g.Pressing (e :: L)) (hunlike : g.Unlike)
    (hstart : ∀ t ∈ started [e], t.same t = true ∧ g.invocations.length < entryLimit) :
    (r.step setting e).Agrees (g.step e) := by
  cases e with
  | startTasks => exact fresh rfl
  | startTask t name args params =>
    obtain ⟨hself, hroom⟩ := hstart t List.mem_cons_self
    exact h.start hself hroom name args params
  | finishTask t result =>
    cases result with
    | none =>
      obtain ⟨hdeferred, i, rest, hopened⟩ := hfits
      exact h.dispatch hopened hdeferred
    | some result => exact h.finish hfits hpressing hunlike
  | _ => exact ⟨h.shows, h.pending, h.latest, h.nested, h.bounded, h.deferred, h.same_self⟩

theorem run {L : List Event} (h : r.Agrees g) (hkeeps : g.Keeps L) (hprompt : Prompt L)
    (hpressing : g.Pressing L)
    (hroom : g.invocations.length + (started L).length ≤ entryLimit)
    (hself : ∀ t ∈ started L, t.same t = true) (hunlike : ∀ A, A <+: L → (g.run A).Unlike) :
    (L.foldl (Recorder.step setting) r).Agrees (g.run L) := by
  -- Agreement is kept only as long as deferred tasks finish promptly, so both go along.
  induction L generalizing r g with
  | nil => exact h
  | cons e L ih =>
    obtain ⟨hfits, hkeeps⟩ := hkeeps
    have hsplit : started (e :: L) = started [e] ++ started L := by cases e <;> rfl
    rw [hsplit] at hroom hself
    obtain ⟨hself, hself'⟩ := List.forall_mem_append.mp hself
    rw [List.length_append] at hroom
    have hstep : (r.step setting e).Agrees (g.step e) := by
      refine h.step hfits hpressing (hunlike [] List.nil_prefix) fun t ht => ⟨hself t ht, ?_⟩
      have hsome := List.length_pos_of_mem ht
      omega
    refine ih hstep hkeeps ?_ (h.pressing hfits hprompt hpressing) ?_ hself' fun A hA => ?_
    · cases e with
      | startTask => exact hprompt.2
      | _ => exact hprompt
    · have hlength := g.length_step_le e
      omega
    · exact hunlike (e :: A) ((List.prefix_cons_inj e).mpr hA)

end Agrees

end Recorder

namespace Runner

variable {σ : Type}

/-- After its first event every run goes on with events that fit the ledger, and its
deferred tasks finish as soon as they have started. -/
theorem run_keeps (setup : Setup σ) (book : Playbook) (world : World σ) :
    ∃ L, (run setup book world).events = .startTasks :: L ∧ ({} : Ledger).Keeps L ∧ Prompt L := by
  rcases hrun : (runPhases setup book.plays).run.run (RunState.initial world) with ⟨o, v⟩
  have hinitial : Calm setup.host (RunState.initial world).events.toList := (Smooth.nil _).toCalm
  obtain ⟨hprompt, -⟩ := (runPhases_unwinds book.plays hinitial).of_run hrun
  obtain ⟨L, whole, hL, hhead, hwhole, hreaches⟩ := (runPhases_ends (X := True) book.plays
    (RunState.initial world) fun _ _ _ => trivial).of_run hrun
  have hevents : v.events.toList = L := hL.events
  obtain ⟨L, rfl⟩ : ∃ L', L = .startTasks :: L' := List.head?_eq_some_iff.mp hhead
  obtain ⟨rest, rfl⟩ := hreaches.begins
  rw [hevents] at hprompt
  have hprompt : Prompt L := hprompt
  have hkeeps : ({} : Ledger).Keeps L :=
    (Ledger.keeps_append.mp (Ledger.leaves_of_complete hwhole {}).keeps).1.2
  have hend (error : Option Error) :
      ({} : Ledger).Keeps (L ++ [.ended error]) ∧ Prompt (L ++ [.ended error]) :=
    ⟨Ledger.keeps_append.mpr ⟨hkeeps, trivial, trivial⟩, hprompt.append trivial⟩
  unfold RunState.initial at hrun
  rcases o with (e | _) | ⟨⟩
  · exact ⟨L ++ [.ended (some e)], by simp [run, hrun, hevents], hend _⟩
  · exact ⟨L, by simp [run, hrun, hevents], hkeeps, hprompt⟩
  · exact ⟨L ++ [.ended none], by simp [run, hrun, hevents], hend _⟩

/-- Every finish in a run belongs to the invocation that the ledger names. The record
of the run shows each invocation with its own result if no two tasks are like each
other while they wait after their dispatch. -/
theorem record_shows_invocations {ω : Type} (setup : Setup σ) (book : Playbook) (world : World σ)
    (setting : Recorder.Setting) (r : Recorder)
    (hroom : (started (run setup book world).events).length ≤ Recorder.entryLimit)
    (hself : ∀ t ∈ started (run setup book world).events, t.same t = true)
    (hunlike : ∀ L, L <+: (run setup book world).events → (({} : Ledger).run L).Unlike) :
    ({} : Ledger).Keeps (run setup book world).events ∧
      List.Forall₂ TaskEntry.Shows
        ((Recorder.reporter setting : Reporter ω Recorder).run
          (run setup book world).events r).2.record.tasks.toList
        (({} : Ledger).run (run setup book world).events).invocations := by
  obtain ⟨L, hevents, hkeeps, hprompt⟩ := run_keeps setup book world
  rw [hevents] at hroom hself hunlike ⊢
  rw [Recorder.reporter_run]
  have hfresh : (r.step setting .startTasks).Agrees {} := .fresh rfl
  refine ⟨⟨trivial, hkeeps⟩, (hfresh.run hkeeps hprompt ?_ ?_ hself fun A hA => ?_).shows⟩
  · exact fun a ha => absurd ha List.not_mem_nil
  · rwa [← Nat.zero_add (started _).length] at hroom
  · exact hunlike (.startTasks :: A) ((List.prefix_cons_inj _).mpr hA)

/-- Surroundings in which only the first `touch` changes something. -/
def counting : Setup Nat := touchingAs fun n => (.ok { changed := n == 0 }, n + 1)

/-- Two deferred tasks around a task with two items. -/
def unlikeTasks : Playbook where
  plays := [{
    name := "p"
    tasks := [{ name := "a", command := "touch", isAsync := true },
      { name := "b", command := "touch", items := some [.int 1, .int 2] },
      { name := "c", command := "touch", isAsync := true }] }]

theorem record_shows_invocations_unlikeTasks :
    let events := (run counting unlikeTasks { host := 0 }).events
    (started events).length ≤ Recorder.entryLimit ∧ (∀ t ∈ started events, t.same t = true) ∧
      (∀ L, L <+: events → (({} : Ledger).run L).Unlike) ∧ ({} : Ledger).Keeps events ∧
      List.Forall₂ TaskEntry.Shows
        ((Recorder.reporter {} : Reporter Unit Recorder).run events {}).2.record.tasks.toList
        (({} : Ledger).run events).invocations := by
  intro events
  have hroom : (started events).length ≤ Recorder.entryLimit := by decide +kernel
  have hself : ∀ t ∈ started events, t.same t = true := by decide +kernel
  have hinits : ∀ L ∈ events.inits, (({} : Ledger).run L).Unlike := by decide +kernel
  have hunlike : ∀ L, L <+: events → (({} : Ledger).run L).Unlike :=
    fun L hL => hinits L ((List.mem_inits L events).mpr hL)
  exact ⟨hroom, hself, hunlike,
    record_shows_invocations counting unlikeTasks { host := 0 } {} {} hroom hself hunlike⟩

/-- Two items of a deferred task. -/
def likeItems : Playbook where
  plays := [{
    name := "p"
    tasks := [
      { name := "t"
        command := "touch"
        items := some [.int 1, .int 2]
        isAsync := true }] }]

/-- The items of a deferred task are alike while they wait, and the record does not
show them with their own results. -/
theorem record_swaps_likeItems :
    let events := (run counting likeItems { host := 0 }).events
    (started events).length ≤ Recorder.entryLimit ∧
      ((Recorder.reporter {} : Reporter Unit Recorder).run events {}).2.record.tasks.toList.map
          TaskEntry.result ≠
        (({} : Ledger).run events).invocations.map Invocation.result := by
  intro events
  have hroom : (started events).length ≤ Recorder.entryLimit := by decide +kernel
  refine ⟨hroom, fun hresults => ?_⟩
  have hchanged := congrArg (List.map (Option.map TaskResult.changed)) hresults
  revert hchanged
  decide +kernel

end Runner

end PlaybookRunner
