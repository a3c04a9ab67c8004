import Mathlib.Data.List.DropRight
import Mathlib.Data.List.Nodup
import PlaybookRunner.Proofs.RecordedResults

/-!
# Open entries

Whatever hooks a recorder is shown, in whatever order, its record counts the tasks that were
started since the last run began and has entries for the first of them, as many as it has room
for. The entries that are open are those without a result, each listed once with its task. An
entry that is settled stays as it is for the rest of the run.

A finish may come for a task that has no entry, or that has none left open. It then finds nothing
that is pending, so that each step keeps the invariant without any condition on the hooks.
-/

namespace PlaybookRunner

/-- The event is the beginning of a run. -/
def Event.beginsRun : Event → Bool
  | .startTasks => true
  | _ => false

/-- The start of a task that an event tells. -/
def Event.start? : Event → Option Invocation
  | .startTask task name args params => some { task, name, args, params }
  | _ => none

/-- The entry has what the task was started with. -/
structure TaskEntry.StartedAs (e : TaskEntry) (v : Invocation) : Prop where
  name : e.name = v.name
  command : e.command = v.task.command
  args : e.args = v.args
  vars : e.vars = v.params

namespace Recorder

/-- The starts of tasks since the last run began, or from the outset. -/
def starts (L : List Event) : List Invocation :=
  (L.rtakeWhile fun e => !e.beginsRun).filterMap Event.start?

/-- The recorder after some hooks, each at its own time. -/
def follow (r : Recorder) (hooks : List (Setting × Event)) : Recorder :=
  hooks.foldl (fun r hook => r.step hook.1 hook.2) r

/-- The places of the open entries. -/
def openPlaces (r : Recorder) : List Nat := r.pending.map Prod.snd

/-- The entry at a place is there and has no result. -/
def Unsettled (r : Recorder) (i : Nat) : Prop :=
  ∃ entry, r.record.tasks[i]? = some entry ∧ entry.result = none

/-- The recorder stands as the events have left it. -/
structure Reflects (r : Recorder) (L : List Event) : Prop where
  count : r.record.taskCount = (starts L).length
  entries : List.Forall₂ TaskEntry.StartedAs r.record.tasks.toList ((starts L).take entryLimit)
  nodup : r.openPlaces.Nodup
  mem_iff : ∀ i, i ∈ r.openPlaces ↔ r.Unsettled i
  tasks : ∀ p ∈ r.pending, (starts L)[p.2]?.map Invocation.task = some p.1

variable {setting : Setting} {r : Recorder} {L : List Event} {e : Event}

theorem starts_concat (L : List Event) (e : Event) :
    starts (L ++ [e]) = if e.beginsRun then [] else starts L ++ e.start?.toList := by
  unfold starts
  rw [List.rtakeWhile_concat]
  cases e.beginsRun with
  | true => rfl
  | false =>
    simp only [Bool.not_false, if_true, List.filterMap_append, Bool.false_eq_true, if_false]
    cases he : e.start? <;> simp [he]

theorem exists_of_takeFirst {α : Type} {p : α → Bool} {l rest : List α} {a : α}
    (h : takeFirst p l = some (a, rest)) :
    ∃ before after, l = before ++ a :: after ∧ rest = before ++ after := by
  induction l generalizing rest with
  | nil => cases h
  | cons b l ih =>
    rw [takeFirst] at h
    by_cases hb : p b = true
    · rw [if_pos hb] at h
      cases h
      exact ⟨[], l, rfl, rfl⟩
    · rw [if_neg hb] at h
      obtain ⟨⟨found, others⟩, hl, ⟨⟩⟩ := Option.map_eq_some_iff.mp h
      obtain ⟨before, after, rfl, rfl⟩ := ih hl
      exact ⟨b :: before, after, rfl, rfl⟩

namespace Reflects

theorem fresh {record : RunRecord} (hcount : record.taskCount = 0) (htasks : record.tasks = #[])
    (hL : starts L = []) : Reflects { record } L := by
  refine ⟨by rw [hL, hcount, List.length_nil], by simp [hL, htasks], .nil, fun i => ?_, by simp⟩
  simp [openPlaces, Unsettled, htasks]

/-- The record has as many entries as tasks were started, up to its limit. -/
theorem size_eq (h : r.Reflects L) : r.record.tasks.size = min r.record.taskCount entryLimit := by
  rw [← Array.length_toList, h.entries.length_eq, List.length_take, h.count, Nat.min_comm]

theorem lt_size (h : r.Reflects L) {i : Nat} (hi : i ∈ r.openPlaces) : i < r.record.tasks.size := by
  obtain ⟨entry, hentry, -⟩ := (h.mem_iff i).mp hi
  exact (Array.getElem?_eq_some_iff.mp hentry).1

theorem of_starts_eq {L' : List Event} (h : r.Reflects L) (hstarts : starts L' = starts L)
    {r' : Recorder} (hcount : r'.record.taskCount = r.record.taskCount)
    (htasks : r'.record.tasks = r.record.tasks) (hpending : r'.pending = r.pending) :
    r'.Reflects L' := by
  refine ⟨by rw [hcount, hstarts, h.count], by rw [htasks, hstarts]; exact h.entries, ?_, ?_, ?_⟩
  · rw [openPlaces, hpending]
    exact h.nodup
  · simpa only [openPlaces, Unsettled, hpending, htasks] using h.mem_iff
  · rw [hstarts, hpending]
    exact h.tasks

theorem open_ (h : r.Reflects L) (t : Task) (name args : String) (params : Vars) :
    (r.open_ t name args params).Reflects (L ++ [.startTask t name args params]) := by
  let v : Invocation := { task := t, name, args, params }
  have hstarts : starts (L ++ [.startTask t name args params]) = starts L ++ [v] :=
    starts_concat L _
  have hsize := h.size_eq
  have hcount := h.count
  have htasks : ∀ p ∈ r.pending, (starts L ++ [v])[p.2]?.map Invocation.task = some p.1 := by
    intro p hp
    have hlt := h.lt_size (List.mem_map_of_mem hp)
    rw [List.getElem?_append_left (by omega)]
    exact h.tasks p hp
  by_cases hroom : r.record.tasks.size < entryLimit
  · -- As long as there is room, every start has its entry.
    have hlength : (starts L).length = r.record.tasks.size := by omega
    have hopen : r.open_ t name args params =
        { record := { r.record with
            taskCount := r.record.taskCount + 1
            tasks := r.record.tasks.push { name, command := t.command, args, vars := params } }
          pending := (t, r.record.tasks.size) :: r.pending } := by
      rw [Recorder.open_, if_pos hroom]
    rw [hopen]
    refine ⟨by simp [hstarts, hcount], ?_, ?_, fun i => ?_, ?_⟩
    · have hbefore : (starts L).take entryLimit = starts L := List.take_of_length_le (by omega)
      have hafter : (starts L ++ [v]).take entryLimit = starts L ++ [v] :=
        List.take_of_length_le (by rw [List.length_append, List.length_singleton]; omega)
      have hentries := h.entries
      rw [hbefore] at hentries
      rw [hstarts, hafter, Array.toList_push]
      exact List.rel_append hentries (.cons ⟨rfl, rfl, rfl, rfl⟩ .nil)
    · exact List.nodup_cons.mpr ⟨fun hmem => Nat.lt_irrefl _ (h.lt_size hmem), h.nodup⟩
    · have hcons : i ∈ r.record.tasks.size :: r.openPlaces ↔
          i = r.record.tasks.size ∨ r.Unsettled i := by rw [List.mem_cons, h.mem_iff]
      refine hcons.trans ?_
      unfold Unsettled
      by_cases hi : i = r.record.tasks.size
      · simp [hi]
      · simp [hi, Array.getElem?_push]
    · rw [hstarts]
      exact List.forall_mem_cons.mpr ⟨by simp [← hlength, v], htasks⟩
  · have hopen : r.open_ t name args params =
        { r with record := { r.record with taskCount := r.record.taskCount + 1 } } := by
      rw [Recorder.open_, if_neg hroom]
    have htake : (starts L ++ [v]).take entryLimit = (starts L).take entryLimit :=
      List.take_append_of_le_length (by omega)
    rw [hopen]
    exact ⟨by simp [hstarts, hcount], by rw [hstarts, htake]; exact h.entries, h.nodup, h.mem_iff,
      by rw [hstarts]; exact htasks⟩

/-- What is settled is the entry of one pending task, which leaves the pending ones. -/
theorem settle_cases (setting : Setting) (t : Task) (result : TaskResult) (r : Recorder) :
    r.settle setting t result = r ∨
      ∃ before after task place, r.pending = before ++ (task, place) :: after ∧
        r.settle setting t result =
          { record := { r.record with
              tasks := r.record.tasks.modify place fun entry =>
                { entry with result := some result, finished := r.elapsed? setting } }
            pending := before ++ after } := by
  unfold Recorder.settle
  split
  next => exact .inl rfl
  next hsome =>
    obtain ⟨before, after, hpending, rfl⟩ := exists_of_takeFirst hsome
    exact .inr ⟨before, after, _, _, hpending, rfl⟩

theorem settle (h : r.Reflects L) (t : Task) (result : TaskResult) :
    (r.settle setting t result).Reflects L := by
  rcases settle_cases setting t result r with hsame | ⟨before, after, task, place, hpending, hsettle⟩
  · rwa [hsame]
  have hsublist : (before ++ after).Sublist r.pending := by
    rw [hpending]
    exact (List.sublist_cons_self _ _).append_left before
  have hnodup := h.nodup
  rw [openPlaces, hpending, List.map_append, List.map_cons, List.nodup_middle] at hnodup
  obtain ⟨hnew, hothers⟩ := List.nodup_cons.mp hnodup
  rw [← List.map_append] at hnew hothers
  rw [hsettle]
  refine ⟨h.count, ?_, hothers, fun i => ?_, fun p hp => h.tasks p (hsublist.subset hp)⟩
  · rw [Array.toList_modify, ← List.modify_id place ((starts L).take entryLimit)]
    exact forall₂_modify (fun e v hev => ⟨hev.name, hev.command, hev.args, hev.vars⟩) h.entries place
  · by_cases hi : place = i
    · subst hi
      refine iff_of_false hnew ?_
      simp [Unsettled, Array.getElem?_modify]
    · have hmem : i ∈ r.openPlaces ↔ i ∈ (before ++ after).map Prod.snd := by
        simp [openPlaces, hpending, Ne.symm hi]
      refine hmem.symm.trans ((h.mem_iff i).trans ?_)
      simp [Unsettled, Array.getElem?_modify, hi]

theorem step (h : r.Reflects L) (setting : Setting) (e : Event) :
    (r.step setting e).Reflects (L ++ [e]) := by
  have hstarts := starts_concat L e
  cases e with
  | startTasks => exact fresh rfl rfl hstarts
  | startTask t name args params => exact h.open_ t name args params
  | finishTask t result =>
    have hsame : starts (L ++ [.finishTask t result]) = starts L := by
      rw [hstarts]
      exact List.append_nil _
    cases result with
    | none => exact h.of_starts_eq hsame rfl rfl rfl
    | some result => exact (h.settle t result).of_starts_eq hsame rfl rfl rfl
  | _ => exact h.of_starts_eq (hstarts.trans (List.append_nil _)) rfl rfl rfl

theorem follow (h : r.Reflects L) (hooks : List (Setting × Event)) :
    (r.follow hooks).Reflects (L ++ hooks.map Prod.snd) := by
  induction hooks generalizing r L with
  | nil => simpa [Recorder.follow] using h
  | cons hook hooks ih =>
    have hrest := ih (h.step hook.1 hook.2)
    rw [List.append_assoc] at hrest
    exact hrest

/-! ### Settled entries -/

variable {i : Nat} {entry : TaskEntry}

theorem step_settled (h : r.Reflects L) (hentry : r.record.tasks[i]? = some entry)
    (hsettled : entry.result.isSome = true) (he : e ≠ .startTasks) :
    (r.step setting e).record.tasks[i]? = some entry := by
  cases e with
  | startTasks => exact absurd rfl he
  | startTask t name args params =>
    have hlt := (Array.getElem?_eq_some_iff.mp hentry).1
    simp only [Recorder.step, Recorder.open_]
    split
    · rwa [Array.getElem?_push, if_neg (Nat.ne_of_lt hlt)]
    · exact hentry
  | finishTask t result =>
    cases result with
    | none => exact hentry
    | some result =>
      rcases settle_cases setting t result r with hsame | ⟨before, after, task, place, hpending, hsettle⟩
      · rw [Recorder.step, hsame]
        exact hentry
      · -- The entry that is settled now had no result before.
        have hopen : r.Unsettled place := (h.mem_iff place).mp (by simp [openPlaces, hpending])
        have hne : place ≠ i := by
          rintro rfl
          obtain ⟨other, hother, hresult⟩ := hopen
          cases hentry.symm.trans hother
          rw [hresult] at hsettled
          cases hsettled
        rw [Recorder.step, hsettle]
        simpa [Array.getElem?_modify, hne] using hentry
  | _ => exact hentry

theorem follow_settled (h : r.Reflects L) (hentry : r.record.tasks[i]? = some entry)
    (hsettled : entry.result.isSome = true) {later : List (Setting × Event)}
    (hlater : ∀ hook ∈ later, hook.2 ≠ .startTasks) :
    (r.follow later).record.tasks[i]? = some entry := by
  induction later generalizing r L with
  | nil => exact hentry
  | cons hook later ih =>
    obtain ⟨hhook, hlater⟩ := List.forall_mem_cons.mp hlater
    exact ih (h.step hook.1 hook.2) (h.step_settled hentry hsettled hhook) hlater

end Reflects

/-- After any hooks the record counts the tasks that were started since the last run began, and has
entries for the first five hundred of them. Open are exactly those without a result, each once, and
a settled entry stays as it is until the next run begins. -/
theorem record_reflects_hooks (hooks : List (Setting × Event)) :
    (follow {} hooks).Reflects (hooks.map Prod.snd) ∧
      (follow {} hooks).record.tasks.size = min (follow {} hooks).record.taskCount 500 ∧
      ∀ later : List (Setting × Event), (∀ hook ∈ later, hook.2 ≠ .startTasks) →
        ∀ (i : Nat) (entry : TaskEntry), (follow {} hooks).record.tasks[i]? = some entry →
          entry.result.isSome = true →
            (follow {} (hooks ++ later)).record.tasks[i]? = some entry := by
  have hfresh : Reflects {} [] := .fresh rfl rfl rfl
  have hreflects : (follow {} hooks).Reflects (hooks.map Prod.snd) := hfresh.follow hooks
  refine ⟨hreflects, hreflects.size_eq, fun later hlater i entry hentry hsettled => ?_⟩
  have happend : follow {} (hooks ++ later) = (follow {} hooks).follow later := List.foldl_append
  rw [happend]
  exact hreflects.follow_settled hentry hsettled hlater

/-- Two starts of one task, of which the later one finishes first. -/
def twoStarts (t : Task) : List (Setting × Event) :=
  [({}, .startTasks), ({}, .startTask t "t" "n=1" []), ({}, .finishTask t none),
    ({}, .startTask t "t" "n=2" []), ({ elapsed := 1 }, .finishTask t (some .ok))]

/-- One finish more than there are open entries, the end of the tasks, and another start. -/
def threeFinishes (t : Task) : List (Setting × Event) :=
  [({ elapsed := 2 }, .finishTask t (some .ofChange)),
    ({ elapsed := 3 }, .finishTask t (some .ofChange)),
    ({ elapsed := 4 }, .finishTask t (some .ofChange)), ({ elapsed := 5 }, .finishTasks),
    ({ elapsed := 6 }, .startTask t "t" "n=3" [])]

theorem record_reflects_hooks_repeated :
    let t : Task := { name := "t", command := "touch", isAsync := true }
    let r := follow {} (twoStarts t)
    (∀ hook ∈ threeFinishes t, hook.2 ≠ .startTasks) ∧ r.Reflects ((twoStarts t).map Prod.snd) ∧
      r.openPlaces = [0] ∧ ∃ entry, r.record.tasks[1]? = some entry ∧ entry.result.isSome = true ∧
        (follow {} (twoStarts t ++ threeFinishes t)).record.tasks[1]? = some entry := by
  intro t r
  have hlater : ∀ hook ∈ threeFinishes t, hook.2 ≠ .startTasks := by simp [threeFinishes]
  have hsome : r.record.tasks[1]?.any (fun entry => entry.result.isSome) = true := by
    decide +kernel
  obtain ⟨entry, hentry, hsettled⟩ := (Option.any_eq_true _ _).mp hsome
  obtain ⟨hreflects, -, hstays⟩ := record_reflects_hooks (twoStarts t)
  exact ⟨hlater, hreflects, by decide +kernel, entry, hentry, hsettled,
    hstays _ hlater 1 entry hentry hsettled⟩

end Recorder

end PlaybookRunner
