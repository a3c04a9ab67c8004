import PlaybookRunner.Proofs.Moves

/-!
# Mirrored worlds

Tables and futures of one world correspond to those of another. Where the tables that
correspond hold the same variables and futures, up to names that are hidden, reading
in one world answers what reading in the other does, and commands keep the
correspondence. Of the two worlds each may have tables and futures of its own.
-/

namespace PlaybookRunner

variable {σ : Type}

/-- The tables and futures of two worlds that correspond to each other. The reserved
tables of the left world correspond to none. -/
structure Pairing where
  tables : Nat → Nat → Prop
  futures : Nat → Nat → Prop
  reserved : Nat → Prop

namespace Pairing

instance : LE Pairing where
  le π ρ := (∀ {i j}, π.tables i j → ρ.tables i j) ∧ (∀ {i j}, π.futures i j → ρ.futures i j) ∧
    ∀ {i}, π.reserved i → ρ.reserved i

variable {π ρ τ : Pairing}

theorem le_refl (π : Pairing) : π ≤ π := ⟨id, id, id⟩

theorem le_trans (h : π ≤ ρ) (h' : ρ ≤ τ) : π ≤ τ :=
  ⟨fun hij => h'.1 (h.1 hij), fun hij => h'.2.1 (h.2.1 hij), fun hi => h'.2.2 (h.2.2 hi)⟩

def addTables (i j : Nat) (π : Pairing) : Pairing :=
  { π with tables := fun a b => π.tables a b ∨ a = i ∧ b = j }

def addFutures (i j : Nat) (π : Pairing) : Pairing :=
  { π with futures := fun a b => π.futures a b ∨ a = i ∧ b = j }

/-- The tables from `n` to `m` are reserved. -/
def reserve (n m : Nat) (π : Pairing) : Pairing :=
  { π with reserved := fun i => π.reserved i ∨ n ≤ i ∧ i < m }

theorem le_addTables (i j : Nat) (π : Pairing) : π ≤ π.addTables i j := ⟨.inl, id, id⟩

theorem le_addFutures (i j : Nat) (π : Pairing) : π ≤ π.addFutures i j := ⟨id, .inl, id⟩

theorem le_reserve (n m : Nat) (π : Pairing) : π ≤ π.reserve n m := ⟨id, id, .inl⟩

end Pairing

/-- Layers that correspond. -/
inductive Layer.Mirrors (π : Pairing) : Layer → Layer → Prop
  | table {i j : Nat} (h : π.tables i j) : Mirrors π (.table i) (.table j)
  | fixed (vars : Vars) : Mirrors π (.fixed vars) (.fixed vars)

abbrev Scope.Mirrors (π : Pairing) : Scope → Scope → Prop := List.Forall₂ (Layer.Mirrors π)

/-- Variables have the same values, the hidden ones apart. -/
def Table.Agrees (hidden : String → Prop) (t t' : Table) : Prop :=
  ∀ key, ¬ hidden key → t.vars.get? key = t'.vars.get? key

/-- Names are bound to futures that correspond, the hidden ones apart. -/
def Table.Binds (hidden : String → Prop) (π : Pairing) (t t' : Table) : Prop :=
  ∀ key, ¬ hidden key → Option.Rel π.futures (t.futures.get? key) (t'.futures.get? key)

/-- Two worlds agree as far as they correspond. -/
structure World.Mirrors (hidden : String → Prop) (H : σ → σ → Prop) (π : Pairing)
    (w w' : World σ) : Prop where
  settled : w.Settled
  settled' : w'.Settled
  host : H w.host w'.host
  lt : ∀ {i j}, π.tables i j → i < w.tables.size ∧ j < w'.tables.size
  functional : ∀ {i j k}, π.tables i j → π.tables i k → j = k
  injective : ∀ {i j k}, π.tables i k → π.tables j k → i = j
  vars : ∀ {i j}, π.tables i j → (w.table i).Agrees hidden (w'.table j)
  binds : ∀ {i j}, π.tables i j → (w.table i).Binds hidden π (w'.table j)
  futures_lt : ∀ {i j}, π.futures i j → i < w.futures.size ∧ j < w'.futures.size
  answers : ∀ {i j}, π.futures i j → w.answer? i = w'.answer? j
  reserved : ∀ {i}, π.reserved i → i < w.tables.size ∧ ∀ j, ¬ π.tables i j

theorem Layer.Mirrors.mono {π ρ : Pairing} {l l' : Layer} (h : l.Mirrors π l') (hle : π ≤ ρ) :
    l.Mirrors ρ l' := by
  cases h with
  | table h => exact .table (hle.1 h)
  | fixed vars => exact .fixed vars

namespace Scope.Mirrors

variable {π ρ : Pairing} {scope scope' : Scope}

theorem mono (h : Scope.Mirrors π scope scope') (hle : π ≤ ρ) : Scope.Mirrors ρ scope scope' :=
  List.Forall₂.imp (fun _ _ hl => hl.mono hle) h

theorem owner (h : Scope.Mirrors π scope scope') :
    Option.Rel π.tables (Scope.owner? scope) (Scope.owner? scope') := by
  induction h with
  | nil => exact .none
  | cons hl _ ih =>
    cases hl with
    | table h => exact .some h
    | fixed vars => exact ih

theorem task (h : Scope.Mirrors π scope scope') (t : Task) :
    Scope.Mirrors π (t.scope scope) (t.scope scope') := .cons (.fixed t.includeVars) h

theorem table (h : Scope.Mirrors π scope scope') {i j : Nat} (hij : π.tables i j) :
    Scope.Mirrors π (.table i :: scope) (.table j :: scope') := .cons (.table hij) h

end Scope.Mirrors

theorem Table.Binds.mono {hidden : String → Prop} {π ρ : Pairing} {t t' : Table}
    (h : t.Binds hidden π t') (hle : π ≤ ρ) : t.Binds hidden ρ t' := by
  intro key hkey
  have hbound := h key hkey
  generalize t.futures.get? key = future at hbound ⊢
  generalize t'.futures.get? key = future' at hbound ⊢
  cases hbound with
  | none => exact .none
  | some hij => exact .some (hle.2.1 hij)

namespace World

variable {host : Host σ} {hidden : String → Prop} {H : σ → σ → Prop} {π : Pairing}
  {w w' v v' : World σ} {i j : Nat}

theorem answer?_congr {i : Nat} (h : v.futures[i]? = w.futures[i]?) :
    v.answer? i = w.answer? i := by
  rw [answer?, answer?, h]

theorem lt_of_later (h : w.futures.toList <+: v.futures.toList) (hi : i < w.futures.size) :
    i < v.futures.size := by
  have hle : w.futures.toList.length ≤ v.futures.toList.length := h.length_le
  simp only [Array.length_toList] at hle
  omega

theorem answer?_of_later (h : w.futures.toList <+: v.futures.toList) (hi : i < w.futures.size) :
    v.answer? i = w.answer? i := by
  apply answer?_congr
  obtain ⟨rest, hrest⟩ := h
  have hlist : v.futures.toList[i]? = w.futures.toList[i]? := by
    rw [← hrest, List.getElem?_append_left (by simpa using hi)]
  simpa using hlist

theorem table_congr {i : Nat} (h : v.tables[i]? = w.tables[i]?) : v.table i = w.table i := by
  rw [table_eq, table_eq, h]

namespace Mirrors

/-- The correspondence is one of tables, futures and surroundings. -/
theorem of_eq (h : w.Mirrors hidden H π w') (htables : v.tables = w.tables)
    (hfutures : v.futures = w.futures) (hhost : v.host = w.host)
    (htables' : v'.tables = w'.tables) (hfutures' : v'.futures = w'.futures)
    (hhost' : v'.host = w'.host) : v.Mirrors hidden H π v' := by
  have htable (i : Nat) : v.table i = w.table i := table_congr (by rw [htables])
  have htable' (i : Nat) : v'.table i = w'.table i := table_congr (by rw [htables'])
  have hanswer (i : Nat) : v.answer? i = w.answer? i := answer?_congr (by rw [hfutures])
  have hanswer' (i : Nat) : v'.answer? i = w'.answer? i := answer?_congr (by rw [hfutures'])
  constructor
  · exact h.settled.of_futures hfutures
  · exact h.settled'.of_futures hfutures'
  · exact hhost ▸ hhost' ▸ h.host
  · exact fun hij => htables ▸ htables' ▸ h.lt hij
  · exact h.functional
  · exact h.injective
  · exact fun hij => by rw [htable, htable']; exact h.vars hij
  · exact fun hij => by rw [htable, htable']; exact h.binds hij
  · exact fun hij => hfutures ▸ hfutures' ▸ h.futures_lt hij
  · exact fun hij => by rw [hanswer, hanswer', h.answers hij]
  · exact fun hi => htables ▸ h.reserved hi

/-- Futures may be added and may get on, as long as those that correspond answer alike. -/
theorem withFutures (h : w.Mirrors hidden H π w') (htables : v.tables = w.tables)
    (hhost : v.host = w.host) (htables' : v'.tables = w'.tables) (hhost' : v'.host = w'.host)
    (hsettled : v.Settled) (hsettled' : v'.Settled)
    (hfutures : ∀ {i j}, π.futures i j →
      (i < v.futures.size ∧ j < v'.futures.size) ∧ v.answer? i = v'.answer? j) :
    v.Mirrors hidden H π v' := by
  have htable (i : Nat) : v.table i = w.table i := table_congr (by rw [htables])
  have htable' (i : Nat) : v'.table i = w'.table i := table_congr (by rw [htables'])
  constructor
  · exact hsettled
  · exact hsettled'
  · exact hhost ▸ hhost' ▸ h.host
  · exact fun hij => htables ▸ htables' ▸ h.lt hij
  · exact h.functional
  · exact h.injective
  · exact fun hij => by rw [htable, htable']; exact h.vars hij
  · exact fun hij => by rw [htable, htable']; exact h.binds hij
  · exact fun hij => (hfutures hij).1
  · exact fun hij => (hfutures hij).2
  · exact fun hi => htables ▸ h.reserved hi

theorem addFutures (h : w.Mirrors hidden H π w') (hi : i < w.futures.size)
    (hj : j < w'.futures.size) (hanswer : w.answer? i = w'.answer? j) :
    w.Mirrors hidden H (π.addFutures i j) w' where
  settled := h.settled
  settled' := h.settled'
  host := h.host
  lt := h.lt
  functional := h.functional
  injective := h.injective
  vars := h.vars
  binds hij := (h.binds hij).mono (π.le_addFutures i j)
  futures_lt := by
    rintro a b (hab | ⟨rfl, rfl⟩)
    · exact h.futures_lt hab
    · exact ⟨hi, hj⟩
  answers := by
    rintro a b (hab | ⟨rfl, rfl⟩)
    · exact h.answers hab
    · exact hanswer
  reserved := h.reserved

/-- Tables that correspond may change alike. -/
theorem modifyTables (h : w.Mirrors hidden H π w') (hij : π.tables i j)
    {change change' : Table → Table}
    (hvars : (change (w.table i)).Agrees hidden (change' (w'.table j)))
    (hbinds : (change (w.table i)).Binds hidden π (change' (w'.table j))) :
    (w.modifyTable i change).Mirrors hidden H π (w'.modifyTable j change') := by
  obtain ⟨hi, hj⟩ := h.lt hij
  have hself : (w.modifyTable i change).table i = change (w.table i) :=
    table_modifyTable_self hi change
  have hself' : (w'.modifyTable j change').table j = change' (w'.table j) :=
    table_modifyTable_self hj change'
  -- Any other pair avoids both tables.
  have hcases {a b : Nat} (hab : π.tables a b) : (a = i ∧ b = j) ∨
      ((w.modifyTable i change).table a = w.table a ∧
        (w'.modifyTable j change').table b = w'.table b) := by
    by_cases ha : i = a
    · subst ha
      exact .inl ⟨rfl, h.functional hab hij⟩
    · have hb : j ≠ b := fun hjb => ha (h.injective hij (hjb ▸ hab))
      exact .inr ⟨table_modifyTable_of_ne ha change w, table_modifyTable_of_ne hb change' w'⟩
  constructor
  · exact h.settled.of_futures rfl
  · exact h.settled'.of_futures rfl
  · exact h.host
  · intro a b hab
    rw [size_modifyTable, size_modifyTable]
    exact h.lt hab
  · exact h.functional
  · exact h.injective
  · intro a b hab
    rcases hcases hab with ⟨rfl, rfl⟩ | ⟨ha, hb⟩
    · rw [hself, hself']
      exact hvars
    · rw [ha, hb]
      exact h.vars hab
  · intro a b hab
    rcases hcases hab with ⟨rfl, rfl⟩ | ⟨ha, hb⟩
    · rw [hself, hself']
      exact hbinds
    · rw [ha, hb]
      exact h.binds hab
  · exact h.futures_lt
  · exact h.answers
  · intro a ha
    rw [size_modifyTable]
    exact h.reserved ha

theorem set (h : w.Mirrors hidden H π w') {scope scope' : Scope}
    (hscope : Scope.Mirrors π scope scope') {key : String} {value value' : Value}
    (hvalue : ¬ hidden key → value = value') :
    (w.set scope key value).Mirrors hidden H π (w'.set scope' key value') := by
  have howner := hscope.owner
  unfold World.set
  generalize scope.owner? = owner at howner ⊢
  generalize scope'.owner? = owner' at howner ⊢
  cases howner with
  | none => exact h
  | some hij =>
    refine h.modifyTables hij (fun other hother => ?_) (h.binds hij)
    change (Dict.put _ _ _).get? other = (Dict.put _ _ _).get? other
    by_cases hkey : other = key
    · rw [hkey, Dict.get?_put_self, Dict.get?_put_self, hvalue (hkey ▸ hother)]
    · rw [Dict.get?_put_of_ne _ _ hkey, Dict.get?_put_of_ne _ _ hkey]
      exact h.vars hij other hother

theorem extend (h : w.Mirrors hidden H π w') {scope scope' : Scope}
    (hscope : Scope.Mirrors π scope scope') (facts : Vars) :
    (w.extend scope facts).Mirrors hidden H π (w'.extend scope' facts) := by
  unfold World.extend
  induction facts generalizing w w' with
  | nil => exact h
  | cons fact rest ih =>
    rw [List.foldl_cons, List.foldl_cons]
    exact ih (h.set hscope fun _ => rfl)

theorem newTables (h : w.Mirrors hidden H π w') (vars : Vars) :
    (w.newTable vars).2.Mirrors hidden H (π.addTables w.tables.size w'.tables.size)
      (w'.newTable vars).2 := by
  have hsize : (w.newTable vars).2.tables.size = w.tables.size + 1 := Array.size_push _
  have hsize' : (w'.newTable vars).2.tables.size = w'.tables.size + 1 := Array.size_push _
  have hle := π.le_addTables w.tables.size w'.tables.size
  constructor
  · exact h.settled.of_futures rfl
  · exact h.settled'.of_futures rfl
  · exact h.host
  · rintro a b (hab | ⟨rfl, rfl⟩)
    · have hlt := h.lt hab
      omega
    · omega
  · rintro a b c (hab | ⟨rfl, rfl⟩) (hac | ⟨ha, rfl⟩)
    · exact h.functional hab hac
    · exact absurd (h.lt hab).1 (by omega)
    · exact absurd (h.lt hac).1 (by omega)
    · rfl
  · rintro a b c (hac | ⟨rfl, rfl⟩) (hbc | ⟨rfl, hc⟩)
    · exact h.injective hac hbc
    · exact absurd (h.lt hac).2 (by omega)
    · exact absurd (h.lt hbc).2 (by omega)
    · rfl
  · rintro a b (hab | ⟨rfl, rfl⟩)
    · rw [table_newTable_of_lt (h.lt hab).1, table_newTable_of_lt (h.lt hab).2]
      exact h.vars hab
    · rw [table_newTable_self, table_newTable_self]
      exact fun _ _ => rfl
  · rintro a b (hab | ⟨rfl, rfl⟩)
    · rw [table_newTable_of_lt (h.lt hab).1, table_newTable_of_lt (h.lt hab).2]
      exact (h.binds hab).mono hle
    · rw [table_newTable_self, table_newTable_self]
      exact fun _ _ => .none
  · exact h.futures_lt
  · exact h.answers
  · intro a ha
    obtain ⟨hlt, hfree⟩ := h.reserved ha
    refine ⟨by omega, fun b => ?_⟩
    rintro (hab | ⟨rfl, -⟩)
    · exact hfree b hab
    · exact absurd hlt (Nat.lt_irrefl _)

/-- The left world may go on by itself where nothing corresponds. -/
theorem left (h : w.Mirrors hidden H π w') (hsettled : v.Settled) (hhost : H v.host w'.host)
    (hsize : w.tables.size ≤ v.tables.size)
    (htables : ∀ {i j}, π.tables i j → v.tables[i]? = w.tables[i]?)
    (hfutures : w.futures.toList <+: v.futures.toList) :
    v.Mirrors hidden H π w' where
  settled := hsettled
  settled' := h.settled'
  host := hhost
  lt hij := ⟨Nat.lt_of_lt_of_le (h.lt hij).1 hsize, (h.lt hij).2⟩
  functional := h.functional
  injective := h.injective
  vars hij := by
    rw [table_congr (htables hij)]
    exact h.vars hij
  binds hij := by
    rw [table_congr (htables hij)]
    exact h.binds hij
  futures_lt hij := ⟨lt_of_later hfutures (h.futures_lt hij).1, (h.futures_lt hij).2⟩
  answers hij := by rw [answer?_of_later hfutures (h.futures_lt hij).1, h.answers hij]
  reserved hi := ⟨Nat.lt_of_lt_of_le (h.reserved hi).1 hsize, (h.reserved hi).2⟩

theorem reserve (h : w.Mirrors hidden H π w') {n : Nat}
    (hfree : ∀ {i j}, π.tables i j → i < n) :
    w.Mirrors hidden H (π.reserve n w.tables.size) w' where
  settled := h.settled
  settled' := h.settled'
  host := h.host
  lt := h.lt
  functional := h.functional
  injective := h.injective
  vars := h.vars
  binds := h.binds
  futures_lt := h.futures_lt
  answers := h.answers
  reserved := by
    rintro i (hi | ⟨hn, hi⟩)
    · exact h.reserved hi
    · exact ⟨hi, fun j hij => absurd (hfree hij) (Nat.not_lt.mpr hn)⟩

end Mirrors

end World

section

variable {host : Host σ} {hidden : String → Prop} {H : σ → σ → Prop} {π : Pairing}
  {scope scope' : Scope} {i j : Nat}

theorem related_force (hij : π.futures i j) :
    Related (World.Mirrors hidden H π) (Future.force host i) (Future.force host j) := by
  intro w w' h
  obtain ⟨o, ho⟩ := h.settled.exists_answer i
  rw [Future.run_force_of_answer? ho, Future.run_force_of_answer? (h.answers hij ▸ ho)]
  exact ⟨rfl, h⟩

/-- Scopes that correspond read alike what is not hidden. -/
theorem Scope.Mirrors.related_read (hscope : Scope.Mirrors π scope scope') {key : String}
    (hkey : ¬ hidden key) :
    Related (World.Mirrors hidden H π) (Scope.read host scope key)
      (Scope.read host scope' key) := by
  unfold Scope.read
  induction hscope with
  | nil => exact .pure none
  | cons hlayer _ ih =>
    cases hlayer with
    | fixed vars =>
      unfold Scope.readWith
      cases Dict.get? vars key with
      | some value => exact .pure _
      | none => exact ih
    | table hij =>
      apply Related.getThen
      intro w w' h
      have hbound := h.binds hij key hkey
      dsimp only
      rw [h.vars hij key hkey]
      generalize Dict.get? (w.table _).futures key = future at hbound ⊢
      generalize Dict.get? (w'.table _).futures key = future' at hbound ⊢
      cases hbound with
      | some hfutures =>
        apply (related_force hfutures).bind
        intro o
        cases o <;> exact .pure _
      | none =>
        dsimp only
        cases Dict.get? (w'.table _).vars key with
        | some value => exact .pure _
        | none => exact ih

theorem Command.keeps_mirrors (hscope : Scope.Mirrors π scope scope') :
    Command.Keeps (World.Mirrors hidden H π) H scope scope' where
  host h := h.host
  setHost h hs := by
    constructor
    · exact h.settled.of_futures rfl
    · exact h.settled'.of_futures rfl
    · exact hs
    · exact h.lt
    · exact h.functional
    · exact h.injective
    · exact h.vars
    · exact h.binds
    · exact h.futures_lt
    · exact h.answers
    · exact h.reserved
  extend facts h := h.extend hscope facts

/-- A command that reads nothing hidden does the same in both worlds. -/
theorem Command.related_run (hscope : Scope.Mirrors π scope scope') {t t' : Task}
    {command : Command} (hsteady : command.Steady host H t t')
    (hmentions : ∀ key ∈ command.mentions, ¬ hidden key) :
    Related (World.Mirrors hidden H π) (command.run host scope t) (command.run host scope' t') :=
  related_runWith (keeps_mirrors hscope) command hsteady fun key hkey =>
    hscope.related_read (hmentions key hkey)

end

namespace Task

/-- The names that a text may read as a template. -/
def templateNames (text : String) : List String := Expr.compiledNames (Expr.compileTemplate text)

/-- The names that the condition may read. -/
def conditionNames (condition : String) : List String :=
  let text := Text.trimmed condition
  let isExpression :=
    (Text.breakPair '{' text.toList).isSome || text.toList.head? == some '(' ||
      text.toList.head? == some '['
  if isExpression then Expr.compiledNames (Expr.compile text) else templateNames text

def valueNames : Value → List String
  | .string text => templateNames text
  | _ => []

/-- The names that the texts of a task may read. -/
def mentions (t : Task) : List String :=
  templateNames t.name ++ templateNames t.args ++ t.vars.flatMap (fun v => valueNames v.2) ++
    (t.condition?.map conditionNames).getD []

/-- What the templates of a task expand to: its name, its arguments, its structured
arguments. -/
def expand (setup : Setup σ) (t : Task) (scope : Scope) :
    RunM σ (Except Unprepared (String × String × Vars)) := do
  let look := scope.read setup.host
  match ← Expr.expandTemplate look t.name with
  | .error e => return .error { name := t.name, args := "", cause := .expr e }
  | .ok name =>
    match ← Expr.expandTemplate look t.args with
    | .error e => return .error { name, args := "", cause := .expr e }
    | .ok args =>
      match ← expandVars look t.vars with
      | .error e => return .error { name, args, cause := .expr e }
      | .ok vars => return .ok (name, args, vars)

/-- The action of a task whose templates are expanded. -/
def bindExpanded (setup : Setup σ) (play : Play) (t : Task) (texts : String × String × Vars) :
    Except Unprepared Prepared :=
  (bindAction setup.registry play t texts.1 texts.2.1 texts.2.2).mapError fun cause =>
    { name := texts.1, args := texts.2.1, cause }

theorem prepare_eq (setup : Setup σ) (play : Play) (t : Task) (scope : Scope) :
    t.prepare setup play scope =
      t.expand setup scope >>= fun texts => pure (texts.bind (t.bindExpanded setup play)) := by
  unfold prepare expand
  simp only [bind_assoc]
  congr 1
  funext o
  cases o with
  | error e => rfl
  | ok name =>
    simp only [bind_assoc]
    congr 1
    funext o
    cases o with
    | error e => rfl
    | ok args =>
      simp only [bind_assoc]
      congr 1
      funext o
      cases o with
      | error e => rfl
      | ok vars =>
        simp only [pure_bind, Except.bind, bindExpanded]
        cases bindAction setup.registry play t name args vars <;> rfl

/-- The action of a prepared task is the module or the command that it names. -/
structure Bound (registry : Registry) (play : Play) (t : Task) (prepared : Prepared) : Prop where
  call : ∀ m, prepared.action = .call m → play.module? t.command = some m
  run : ∀ command, prepared.action = .run command → play.module? t.command = none ∧
    registry.bind t.command prepared.params = .ok command

theorem bound_of_bindAction {registry : Registry} {play : Play} {t : Task} {name args : String}
    {vars : Vars} {prepared : Prepared}
    (h : bindAction registry play t name args vars = .ok prepared) :
    Bound registry play t prepared := by
  unfold bindAction at h
  split at h
  next m hm =>
    split at h
    next => cases h
    next =>
      split at h
      next => cases h
      next =>
        cases h
        exact ⟨fun _ hcall => by cases hcall; exact hm, fun _ hrun => by cases hrun⟩
  next hm =>
    split at h
    next => cases h
    next =>
      split at h
      next => cases h
      next hbind =>
        cases h
        exact ⟨fun _ hcall => (by cases hcall), fun _ hrun => (by cases hrun; exact ⟨hm, hbind⟩)⟩

/-- A prepared task is one whose texts were expanded and then bound. -/
theorem exists_bindAction_of_prepare (setup : Setup σ) (play : Play) (t : Task) (scope : Scope) :
    Answers (t.prepare setup play scope) fun r => ∀ prepared, r = .ok prepared →
      ∃ name args vars, bindAction setup.registry play t name args vars = .ok prepared := by
  rw [prepare_eq]
  apply Answers.bind
  intro texts
  apply Answers.pure
  intro prepared hprepared
  cases texts with
  | error u => cases hprepared
  | ok texts =>
    change t.bindExpanded setup play texts = .ok prepared at hprepared
    unfold bindExpanded at hprepared
    cases hbound : bindAction setup.registry play t texts.1 texts.2.1 texts.2.2 with
    | error cause =>
      rw [hbound] at hprepared
      cases hprepared
    | ok bound =>
      rw [hbound] at hprepared
      cases hprepared
      exact ⟨_, _, _, hbound⟩

theorem bound_of_prepare (setup : Setup σ) (play : Play) (t : Task) (scope : Scope) :
    Answers (t.prepare setup play scope) fun r =>
      ∀ prepared, r = .ok prepared → Bound setup.registry play t prepared := by
  intro w prepared hprepared
  obtain ⟨name, args, vars, hbound⟩ :=
    exists_bindAction_of_prepare setup play t scope w prepared hprepared
  exact bound_of_bindAction hbound

variable {R : World σ → World σ → Prop} {look look' : String → RunM σ (Option Value)}

theorem related_expandVars (vars : Vars)
    (hlook : ∀ key ∈ vars.flatMap (fun v => valueNames v.2), Related R (look key) (look' key)) :
    Related R (expandVars look vars) (expandVars look' vars) := by
  induction vars with
  | nil => exact .pure _
  | cons entry rest ih =>
    obtain ⟨key, value⟩ := entry
    have hrest : Related R (expandVars look rest) (expandVars look' rest) :=
      ih fun k hk => hlook k (List.mem_append_right _ hk)
    have hfirst : ∀ k ∈ valueNames value, Related R (look k) (look' k) := fun k hk =>
      hlook k (List.mem_append_left _ hk)
    cases value with
    | string text =>
      apply (Expr.related_expandTemplate text hfirst).bind
      intro o
      cases o with
      | error e => exact .pure _
      | ok expanded => exact hrest.bind fun _ => .pure _
    | _ => exact hrest.bind fun _ => .pure _

theorem related_expand {setup : Setup σ} {t : Task} {scope scope' : Scope}
    (hread : ∀ key ∈ t.mentions,
      Related R (scope.read setup.host key) (scope'.read setup.host key)) :
    Related R (t.expand setup scope) (t.expand setup scope') := by
  have hname : ∀ key ∈ templateNames t.name, _ := fun key hkey =>
    hread key (List.mem_append_left _ (List.mem_append_left _ (List.mem_append_left _ hkey)))
  have hargs : ∀ key ∈ templateNames t.args, _ := fun key hkey =>
    hread key (List.mem_append_left _ (List.mem_append_left _ (List.mem_append_right _ hkey)))
  have hvars : ∀ key ∈ t.vars.flatMap (fun v => valueNames v.2), _ := fun key hkey =>
    hread key (List.mem_append_left _ (List.mem_append_right _ hkey))
  apply (Expr.related_expandTemplate t.name hname).bind
  intro o
  cases o with
  | error e => exact .pure _
  | ok name =>
    apply (Expr.related_expandTemplate t.args hargs).bind
    intro o
    cases o with
    | error e => exact .pure _
    | ok args =>
      apply (related_expandVars t.vars hvars).bind
      intro o
      cases o <;> exact .pure _

/-- A task is prepared alike in plays in which it names the same. -/
theorem related_prepare {setup : Setup σ} {play play' : Play} {t : Task} {scope scope' : Scope}
    (hmodule : play'.module? t.command = play.module? t.command)
    (hread : ∀ key ∈ t.mentions,
      Related R (scope.read setup.host key) (scope'.read setup.host key)) :
    Related R (t.prepare setup play scope) (t.prepare setup play' scope') := by
  have hbound : t.bindExpanded setup play' = t.bindExpanded setup play := by
    funext texts
    unfold bindExpanded bindAction
    rw [hmodule]
  rw [prepare_eq, prepare_eq, hbound]
  exact (related_expand hread).bind fun _ => .pure _

theorem related_holds (condition : String)
    (hlook : ∀ key ∈ conditionNames condition, Related R (look key) (look' key)) :
    Related R (holds look condition) (holds look' condition) := by
  unfold conditionNames at hlook
  unfold holds
  dsimp only at hlook ⊢
  split
  next h =>
    rw [if_pos h] at hlook
    exact (Expr.related_run _ hlook).bind fun _ => .pure _
  next h =>
    rw [if_neg h] at hlook
    exact (Expr.related_run _ hlook).bind fun _ => .pure _

theorem related_due {setup : Setup σ} {t : Task} {outer outer' : Scope}
    (hread : ∀ key ∈ t.mentions, Related R ((t.scope outer).read setup.host key)
      ((t.scope outer').read setup.host key)) :
    Related R (t.due setup outer) (t.due setup outer') := by
  unfold due
  cases hcondition : t.condition? with
  | none => exact .pure _
  | some condition =>
    exact related_holds condition fun key hkey =>
      hread key (List.mem_append_right _ (by simpa [hcondition] using hkey))

end Task

end PlaybookRunner
