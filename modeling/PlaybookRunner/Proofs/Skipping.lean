import PlaybookRunner.Proofs.Moves

/-!
# Skipped tasks

A task is skipped if its condition does not hold, or if it is for each of its items
and there are none. A skipped task reports nothing and changes nothing but what the
reading of its condition does. A task that is not skipped reports its start first,
also if its condition cannot be evaluated.
-/

namespace PlaybookRunner

variable {σ : Type} {setup : Setup σ}

open Transcript

namespace Task

/-- The task is to run for each of its items, and there are none. -/
def itemless (t : Task) : Bool :=
  match t.items with
  | some [] => true
  | _ => false

/-- Whether a task is skipped: its condition does not hold, or it is for no items. A
condition that cannot be evaluated fails the task, which does not skip it. -/
def skipped (setup : Setup σ) (outer : Scope) (t : Task) : RunM σ Bool := do
  match ← t.due setup outer with
  | .ok due => return !due || t.itemless
  | .error _ => return false

/-- Whether all of some tasks are skipped, each in its scope and in the world that the
conditions before it left. -/
def allSkipped (setup : Setup σ) : List (Scope × Task) → RunM σ Bool
  | [] => return true
  | (outer, t) :: rest => do
    if ← t.skipped setup outer then allSkipped setup rest else return false

variable {outer : Scope} {t : Task} {w v : World σ}

theorem run_allSkipped_cons (rest : List (Scope × Task)) (w : World σ) :
    (allSkipped setup ((outer, t) :: rest)).run w =
      if ((t.skipped setup outer).run w).1 then
        (allSkipped setup rest).run ((t.skipped setup outer).run w).2
      else (false, ((t.skipped setup outer).run w).2) := by
  change (if ((t.skipped setup outer).run w).1 then _ else _ : RunM σ Bool).run _ = _
  split <;> rfl

theorem run_allSkipped_append (A B : List (Scope × Task)) (w : World σ) :
    (allSkipped setup (A ++ B)).run w =
      if ((allSkipped setup A).run w).1 then
        (allSkipped setup B).run ((allSkipped setup A).run w).2
      else (allSkipped setup A).run w := by
  induction A generalizing w with
  | nil => rfl
  | cons call A ih =>
    obtain ⟨outer, t⟩ := call
    rw [List.cons_append, run_allSkipped_cons, run_allSkipped_cons]
    split
    · exact ih _
    · rfl

theorem run_skipped (t : Task) (outer : Scope) (w : World σ) :
    (t.skipped setup outer).run w =
      (match ((t.due setup outer).run w).1 with
        | .ok due => !due || t.itemless
        | .error _ => false, ((t.due setup outer).run w).2) := by
  change (match ((t.due setup outer).run w).1 with
    | .ok due => return !due || t.itemless
    | .error _ => return false : RunM σ Bool).run ((t.due setup outer).run w).2 = _
  split <;> rfl

/-- A task without a condition is skipped only for its items, and reads nothing. -/
theorem run_skipped_of_unconditional (h : t.condition? = none) (w : World σ) :
    (t.skipped setup outer).run w = (t.itemless, w) := by
  rw [run_skipped]
  unfold due
  rw [h]
  rfl

/-- Among tasks without a condition and with something to run none is skipped. -/
theorem allSkipped_of_unconditional {calls : List (Scope × Task)} (hne : calls ≠ [])
    (hcalls : ∀ call ∈ calls, call.2.condition? = none ∧ call.2.itemless = false) (w : World σ) :
    ((allSkipped setup calls).run w).1 = false := by
  obtain ⟨⟨outer, t⟩, rest, rfl⟩ := List.exists_cons_of_ne_nil hne
  obtain ⟨hcondition, hitems⟩ := hcalls _ List.mem_cons_self
  rw [run_allSkipped_cons, run_skipped_of_unconditional hcondition, hitems]
  rfl

theorem items_of_itemless (h : t.itemless = true) : t.items = some [] := by
  unfold itemless at h
  split at h
  · assumption
  · cases h

end Task

namespace Runner

open Step

variable {s : RunState σ} {t : Task} {outer : Scope}

section

variable {call : Task → Scope → Step σ Bool}

/-- A skipped task only reads for its condition. -/
theorem run_runTaskWith_of_skipped {w : World σ}
    (h : (t.skipped setup outer).run s.world = (true, w)) :
    (runTaskWith setup call t outer).run.run s = (.ok false, { s with world := w }) := by
  rw [Task.run_skipped] at h
  rcases hdue : (t.due setup outer).run s.world with ⟨e | due, u⟩
  · rw [hdue] at h
    cases h
  rw [hdue] at h
  obtain ⟨hskip, rfl⟩ := Prod.mk.inj h
  rw [runTaskWith_eq, run_bind_of_ok (run_inWorld _ s), hdue]
  cases due with
  | false => rfl
  | true =>
    have hitems : t.items = some [] := Task.items_of_itemless hskip
    unfold runDue
    rw [hitems]
    rfl

theorem runDue_opens {p : Play} {n : Nat}
    (hcall : ∀ sub outer, Adds setup.host p (call sub outer) (Ran p n sub.turns))
    (hitems : t.itemless = false) :
    Adds setup.host p (runDue setup call t outer) fun _ L => Opens t L := by
  unfold runDue
  cases hcase : t.items with
  | none => exact (adds_runOnce hcall t outer).mono fun _ _ h => h.2
  | some items =>
    cases items with
    | nil => simp [Task.itemless, hcase] at hitems
    | cons item items =>
      have hitem (item : Value) := adds_runItem hcall t outer item
      have hrest := adds_anyChanged items fun item => (hitem item).mono fun _ _ h => h.1
      apply (hitem item).bind
      · rintro changed L ⟨-, hopens⟩
        apply hrest.bind
        · intro others L' _
          apply Adds.pure
          exact hopens.append (L' ++ [])
        · exact fun e L' _ => hopens.append L'
      · exact fun e L h => h.2

/-- A task that is not skipped starts. -/
theorem runTaskWith_opens {p : Play} {n : Nat}
    (hcall : ∀ sub outer, Adds setup.host p (call sub outer) (Ran p n sub.turns))
    (hs : s.current.play = p) (h : ((t.skipped setup outer).run s.world).1 = false) :
    (runTaskWith setup call t outer).Ends s fun _ v => ∃ L, s.Extends setup.host L v ∧
      Opens t L := by
  rcases hdue : (t.due setup outer).run s.world with ⟨o, u⟩
  obtain ⟨_, hreads, -, rfl⟩ := adds_due t outer s hs
  rw [run_inWorld, hdue] at hreads
  rw [Task.run_skipped, hdue] at h
  rw [runTaskWith_eq]
  apply Ends.inWorldThen
  rw [hdue]
  have hstarts : Adds setup.host p (match o with
      | .ok due => if due then runDue setup call t outer else return false
      | .error e =>
        reportFailure t t.name "" (.expr e) >>= fun _ => failTask t.name (.expr e))
      fun _ L => Opens t L := by
    cases o with
    | ok due =>
      obtain ⟨rfl, hitems⟩ : due = true ∧ t.itemless = false := by simpa using h
      exact runDue_opens hcall hitems
    | error e => exact (adds_fail t t.name "" (.expr e)).mono fun _ _ h => h.2.2
  obtain ⟨L, hL, hopens⟩ := hstarts { s with world := u } hs
  exact ⟨L, hreads.trans hL, hopens⟩

end

/-- A skipped task of the running play only reads for its condition. -/
theorem run_runPlayTask_of_skipped (hdepth : 0 < setup.callDepth) {w : World σ}
    (h : (t.skipped setup (playScope setup s.current)).run s.world = (true, w)) :
    (runPlayTask setup t).run.run s = (.ok false, { s with world := w }) := by
  obtain ⟨depth, hdepth⟩ := Nat.exists_eq_add_one_of_ne_zero (Nat.ne_of_gt hdepth)
  have hrun : (runPlayTask setup t).run.run s =
      (runTask setup setup.callDepth t (playScope setup s.current)).run.run s := rfl
  rw [hrun, hdepth]
  exact run_runTaskWith_of_skipped h

theorem runPlayTask_opens (hdepth : 0 < setup.callDepth)
    (h : ((t.skipped setup (playScope setup s.current)).run s.world).1 = false) :
    (runPlayTask setup t).Ends s fun _ v => ∃ L, s.Extends setup.host L v ∧ Opens t L := by
  obtain ⟨depth, hdepth⟩ := Nat.exists_eq_add_one_of_ne_zero (Nat.ne_of_gt hdepth)
  have hrun : (runPlayTask setup t).run.run s =
      (runTask setup setup.callDepth t (playScope setup s.current)).run.run s := rfl
  unfold Ends
  rw [hrun, hdepth]
  exact runTaskWith_opens (adds_runTask setup s.current.play depth) rfl h

end Runner

end PlaybookRunner
