import Mathlib
import PlaybookRunner.Proofs.ScopeForest

/-!
# The names that an expression mentions

A scope in which no name stands for a pending future answers each reading at once and
leaves the world as it is. Evaluation reads no other names than those at the heads of
the paths of an expression, so scopes that agree on them give the same value or the
same error, and a variable that is not mentioned may be bound to anything.
-/

namespace PlaybookRunner

variable {σ τ : Type} {host : Host σ} {w : World σ}

namespace World

/-- The future that the name stands for, if any, has an answer without running a job. -/
def SettledAt (w : World σ) (scope : Scope) (key : String) : Prop :=
  ∀ i, w.bound? scope key = some i → ∃ o, w.answer? i = some o

/-- No name of the scope stands for a future whose job is still to run. -/
def SettledIn (w : World σ) (scope : Scope) : Prop := ∀ key, w.SettledAt scope key

theorem Settled.settledIn (h : w.Settled) (scope : Scope) : w.SettledIn scope :=
  fun _ i _ => h.exists_answer i

/-- The value that the outcome of a future is read as. -/
def outcomeValue : Except Error TaskResult → Value
  | .ok result => result.toValue
  | .error e => (TaskResult.ofFailure e.message).toValue

/-- What a layer shows under a name: the outcome of a future before a variable. -/
def shownIn (w : World σ) (key : String) : Layer → Option Value
  | .table index =>
    match (w.table index).futures.get? key with
    | some i => (w.answer? i).map outcomeValue
    | none => Dict.get? (w.table index).vars key
  | .fixed vars => Dict.get? vars key

/-- What the first layer that knows a name shows under it. -/
def shown (w : World σ) : Scope → String → Option Value
  | [], _ => none
  | layer :: rest, key => (w.shownIn key layer).or (shown w rest key)

theorem SettledAt.run_read {scope : Scope} {key : String} (h : w.SettledAt scope key)
    (host : Host σ) : (scope.read host key).run w = (w.shown scope key, w) := by
  induction scope with
  | nil => rfl
  | cons layer rest ih =>
    unfold Scope.read at ih
    cases layer with
    | fixed vars =>
      simp only [Scope.read, Scope.readWith, shown, shownIn]
      cases hkey : Dict.get? vars key with
      | none => rw [ih fun i hi => h i (by simpa [bound?, hkey] using hi), Option.none_or]
      | some value => rfl
    | table index =>
      simp only [Scope.read, Scope.readWith, StateT.run_bind, StateT.run_get, pure_bind, shown,
        shownIn]
      cases hfuture : Dict.get? (w.table index).futures key with
      | some i =>
        obtain ⟨o, ho⟩ := h i (by rw [bound?, hfuture])
        simp only [StateT.run_bind, Future.run_force_of_answer? ho, ho]
        cases o <;> rfl
      | none =>
        cases hkey : Dict.get? (w.table index).vars key with
        | none =>
          rw [ih fun i hi => h i (by simpa [bound?, hfuture, hkey] using hi), Option.none_or]
        | some value => rfl

section

variable {key other : String} (h : other ≠ key) (target : Scope) (value : Value)

include h

theorem get?_vars_set_of_ne (w : World σ) (i : Nat) :
    Dict.get? ((w.set target key value).table i).vars other = Dict.get? (w.table i).vars other := by
  unfold set
  cases target.owner? with
  | none => rfl
  | some n =>
    dsimp only
    rw [table_eq, table_eq, getElem?_modifyTable]
    by_cases hi : n = i
    · rw [if_pos hi]
      cases w.tables[i]? with
      | none => rfl
      | some t => exact Dict.get?_put_of_ne t.vars value h
    · rw [if_neg hi]

/-- A write to one name leaves what all other names stand for. -/
theorem bound?_set_of_ne (w : World σ) (scope : Scope) :
    (w.set target key value).bound? scope other = w.bound? scope other := by
  induction scope with
  | nil => rfl
  | cons layer rest ih =>
    cases layer with
    | fixed vars => simp only [bound?, ih]
    | table i =>
      simp only [bound?, ih, get?_vars_set_of_ne h, (writes_set target key value w).bound]

theorem shown_set_of_ne (w : World σ) (scope : Scope) :
    (w.set target key value).shown scope other = w.shown scope other := by
  induction scope with
  | nil => rfl
  | cons layer rest ih =>
    cases layer with
    | fixed vars => simp only [shown, shownIn, ih]
    | table i =>
      simp only [shown, shownIn, ih, get?_vars_set_of_ne h, (writes_set target key value w).bound,
        answer?, futures_set]

theorem SettledAt.set {scope : Scope} (hw : w.SettledAt scope other) :
    (w.set target key value).SettledAt scope other := by
  intro i hi
  rw [bound?_set_of_ne h] at hi
  obtain ⟨o, ho⟩ := hw i hi
  exact ⟨o, by simpa only [answer?, futures_set] using ho⟩

end

end World

namespace Expr

/-- Where futures have settled, evaluation depends on what is shown under the names. -/
theorem eval_eq_of_shown (e : Expr) {host' : Host τ} {w' : World τ} {scope scope' : Scope}
    (hw : ∀ key ∈ e.names, w.SettledAt scope key) (hw' : ∀ key ∈ e.names, w'.SettledAt scope' key)
    (hshown : ∀ key ∈ e.names, w.shown scope key = w'.shown scope' key) :
    ((eval (scope.read host) e).run.run w).1 = ((eval (scope'.read host') e).run.run w').1 := by
  have hread : ∀ key ∈ e.names, Related (fun v v' => v = w ∧ v' = w')
      (scope.read host key) (scope'.read host' key) := by
    rintro key hkey _ _ ⟨rfl, rfl⟩
    rw [(hw key hkey).run_read, (hw' key hkey).run_read]
    exact ⟨hshown key hkey, rfl, rfl⟩
  exact (related_eval e hread w w' ⟨rfl, rfl⟩).1

/-- Evaluation depends only on the names that an expression mentions: two scopes without
unsettled futures that answer alike for each of them give the same value or the same
error, and so does one scope before and after a name that is not mentioned is bound. -/
theorem eval_depends_on_names (e : Expr) (host : Host σ) {scope : Scope} (hw : w.SettledIn scope) :
    (∀ {τ : Type} (host' : Host τ) (w' : World τ) (scope' : Scope), w'.SettledIn scope' →
      (∀ key ∈ e.names,
        ((scope.read host key).run w).1 = ((scope'.read host' key).run w').1) →
      ((eval (scope.read host) e).run.run w).1 = ((eval (scope'.read host') e).run.run w').1) ∧
    ∀ (target : Scope) (key : String) (value : Value), key ∉ e.names →
      ((eval (scope.read host) e).run.run (w.set target key value)).1 =
        ((eval (scope.read host) e).run.run w).1 := by
  constructor
  · intro τ host' w' scope' hw' hread
    apply eval_eq_of_shown e (fun key _ => hw key) (fun key _ => hw' key)
    intro key hkey
    have hsame := hread key hkey
    rwa [(hw key).run_read, (hw' key).run_read] at hsame
  · intro target key value hkey
    have hne {other : String} (h : other ∈ e.names) : other ≠ key := fun heq => hkey (heq ▸ h)
    exact eval_eq_of_shown e (fun other h => (hw other).set (hne h) target value)
      (fun other _ => hw other) fun other h => World.shown_set_of_ne (hne h) target value w scope

/-- A table in which `c` is a future that has settled. -/
def harvested : World Unit where
  host := ()
  tables := #[{ vars := [("on", .bool true), ("a", .map [("b", .nil)])], futures := [("c", 0)] }]
  futures := #[⟨"c", .ready (TaskResult.ofChange.withField "n" (.int 3))⟩]

theorem settled_harvested : harvested.SettledIn [.table 0] := by
  apply World.Settled.settledIn
  intro i f job hf
  cases i with
  | zero =>
    cases hf
    exact Progress.noConfusion
  | succ i => cases hf

/-- The same answers without tables and futures, and one more. -/
def recalled : Scope :=
  [.fixed [("x", .nil), ("c", .result true false [("n", .int 3)])],
    .fixed [("a", .map [("b", .nil)]), ("on", .bool true)]]

/-- Mentions a future, two variables, and a name that is bound nowhere. -/
def guarded : Expr :=
  call "default" [call "if" [call "and" [symbol "on", call "defined" [symbol "a.b"]],
    symbol "lost", nil], list [symbol "c.n", concat [string "on: ", symbol "on"]]]

theorem eval_depends_on_names_guarded :
    harvested.SettledIn [.table 0] ∧ ({ host := () } : World Unit).SettledIn recalled ∧
      (∀ key ∈ guarded.names, ((Scope.read World.bareHost [.table 0] key).run harvested).1 =
        ((recalled.read World.bareHost key).run { host := () }).1) ∧
      "x" ∉ guarded.names ∧
      ((eval (Scope.read World.bareHost [.table 0]) guarded).run.run harvested).1 =
        ((eval (recalled.read World.bareHost) guarded).run.run { host := () }).1 ∧
      ((eval (Scope.read World.bareHost [.table 0]) guarded).run.run
          (harvested.set [.table 0] "x" .nil)).1 =
        ((eval (Scope.read World.bareHost [.table 0]) guarded).run.run harvested).1 := by
  have hnames : guarded.names = ["on", "a", "lost", "c", "on"] := by decide +kernel
  have hread : ∀ key ∈ guarded.names,
      ((Scope.read World.bareHost [.table 0] key).run harvested).1 =
        ((recalled.read World.bareHost key).run { host := () }).1 := by
    rw [hnames]
    simp only [List.forall_mem_cons, List.not_mem_nil, false_implies, implies_true, and_true]
    exact ⟨by cbv, by cbv, by cbv, by cbv, by cbv⟩
  have hfree : "x" ∉ guarded.names := by rw [hnames]; decide
  have hfresh : ({ host := () } : World Unit).SettledIn recalled :=
    World.Settled.settledIn (World.settled_fresh ()) recalled
  obtain ⟨hscopes, hbound⟩ :=
    eval_depends_on_names guarded World.bareHost settled_harvested
  exact ⟨settled_harvested, hfresh, hread, hfree, hscopes _ _ _ hfresh hread,
    hbound _ "x" .nil hfree⟩

end Expr

end PlaybookRunner
