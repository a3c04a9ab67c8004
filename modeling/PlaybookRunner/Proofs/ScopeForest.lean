import PlaybookRunner.Proofs.Confluence
import PlaybookRunner.Proofs.Moves

/-!
# Forests of scopes

Scopes are made one after the other over scopes that were made before: with a table of
their own, or with overrides over a wrapped scope. A write to a scope changes the table
of its owner at the key that is written and nothing else. A reading walks outwards to
the first scope that binds the key, so it sees the write if and only if it comes to the
owner before another binding.
-/

namespace PlaybookRunner

variable {σ : Type} {host : Host σ}

namespace World

/-- What a layer binds a key to. -/
def bindingIn (w : World σ) (key : String) : Layer → Option Value
  | .table index => Dict.get? (w.table index).vars key
  | .fixed vars => Dict.get? vars key

/-- What the first layer that binds a key binds it to. -/
def lookup (w : World σ) : Scope → String → Option Value
  | [], _ => none
  | layer :: rest, key => (w.bindingIn key layer).or (lookup w rest key)

/-- Reading a name that stands for no future. -/
theorem run_read_of_unbound {w : World σ} {scope : Scope} {key : String}
    (h : w.bound? scope key = none) :
    (scope.read host key).run w = (w.lookup scope key, w) := by
  induction scope with
  | nil => rfl
  | cons layer rest ih =>
    unfold Scope.read at ih
    cases layer with
    | fixed vars =>
      simp only [Scope.read, Scope.readWith, lookup, bindingIn]
      cases hkey : Dict.get? vars key with
      | none =>
        rw [bound?, hkey] at h
        rw [ih h, Option.none_or]
      | some value => rfl
    | table index =>
      cases hfuture : Dict.get? (w.table index).futures key with
      | some i =>
        rw [bound?, hfuture] at h
        cases h
      | none =>
        simp only [Scope.read, Scope.readWith, StateT.run_bind, StateT.run_get, pure_bind, hfuture,
          lookup, bindingIn]
        cases hkey : Dict.get? (w.table index).vars key with
        | none =>
          rw [bound?, hfuture, hkey] at h
          rw [ih h, Option.none_or]
        | some value => rfl

/-- No name is bound to a future. -/
def Futureless (w : World σ) : Prop := ∀ index, (w.table index).futures = []

theorem Futureless.bound?_eq_none {w : World σ} (h : w.Futureless) (scope : Scope)
    (key : String) : w.bound? scope key = none := by
  induction scope with
  | nil => rfl
  | cons layer rest ih =>
    cases layer with
    | fixed vars => simp only [bound?, ih, ite_self]
    | table index =>
      have hnone : Dict.get? (w.table index).futures key = none := by rw [h index]; rfl
      simp only [bound?, hnone, ih, ite_self]

theorem Futureless.run_read {w : World σ} (h : w.Futureless) (scope : Scope) (key : String) :
    (scope.read host key).run w = (w.lookup scope key, w) :=
  run_read_of_unbound (h.bound?_eq_none scope key)

theorem bound?_congr_of_mem {v w : World σ} {scope : Scope}
    (h : ∀ i, .table i ∈ scope → v.table i = w.table i) (key : String) :
    v.bound? scope key = w.bound? scope key := by
  induction scope with
  | nil => rfl
  | cons layer rest ih =>
    have hrest := ih fun i hi => h i (List.mem_cons_of_mem _ hi)
    cases layer with
    | fixed vars => simp only [bound?, hrest]
    | table index => simp only [bound?, h index List.mem_cons_self, hrest]

theorem bound?_congr {v w : World σ} (h : ∀ i, v.table i = w.table i) (scope : Scope)
    (key : String) : v.bound? scope key = w.bound? scope key :=
  bound?_congr_of_mem (fun i _ => h i) key

/-- Only the variables of its own tables matter to a lookup. -/
theorem lookup_congr_of_mem {v w : World σ} {scope : Scope} {key : String}
    (h : ∀ i, .table i ∈ scope →
      Dict.get? (v.table i).vars key = Dict.get? (w.table i).vars key) :
    v.lookup scope key = w.lookup scope key := by
  induction scope with
  | nil => rfl
  | cons layer rest ih =>
    have hrest := ih fun i hi => h i (List.mem_cons_of_mem _ hi)
    cases layer with
    | fixed vars => simp only [lookup, bindingIn, hrest]
    | table index => simp only [lookup, bindingIn, h index List.mem_cons_self, hrest]

theorem lookup_congr {v w : World σ} (h : ∀ i, (v.table i).vars = (w.table i).vars)
    (scope : Scope) (key : String) : v.lookup scope key = w.lookup scope key :=
  lookup_congr_of_mem fun i _ => congrArg (Dict.get? · key) (h i)

section

variable {w : World σ} {scope : Scope} {n : Nat}

theorem set_of_owner (howner : scope.owner? = some n) (key : String) (value : Value) :
    w.set scope key value = w.modifyTable n fun t => { t with vars := t.vars.put key value } := by
  simp only [set, howner]

theorem modifyTable_modifyTable (n : Nat) (f g : Table → Table) (w : World σ) :
    (w.modifyTable n f).modifyTable n g = w.modifyTable n fun t => g (f t) := by
  simp only [modifyTable, mk.injEq, and_true]
  refine Array.ext_getElem? fun i => ?_
  simp only [Array.getElem?_modify]
  split <;> simp [Function.comp_def]

/-- Variables bound one after the other change the table of the owner once. -/
theorem extend_of_owner (howner : scope.owner? = some n) (vars : Vars) :
    w.extend scope vars = w.modifyTable n fun t => { t with vars := t.vars.extend vars } := by
  unfold extend
  induction vars generalizing w with
  | nil =>
    refine congrArg (fun tables => { w with tables }) (Array.ext_getElem? fun i => ?_)
    simp [Array.getElem?_modify, Dict.extend]
  | cons p rest ih =>
    obtain ⟨key, value⟩ := p
    rw [List.foldl_cons, ih]
    dsimp only
    rw [set_of_owner howner, modifyTable_modifyTable]
    rfl

theorem bindingIn_set_self (howner : scope.owner? = some n) (hn : n < w.tables.size)
    (key : String) (value : Value) :
    (w.set scope key value).bindingIn key (.table n) = some value := by
  rw [set_of_owner howner, bindingIn, table_modifyTable_self hn]
  exact Dict.get?_put_self _ _ _

theorem bindingIn_set_of_ne (howner : scope.owner? = some n) (hn : n < w.tables.size)
    {key other : String} {layer : Layer} (h : layer = .table n → other ≠ key) (value : Value) :
    (w.set scope key value).bindingIn other layer = w.bindingIn other layer := by
  rw [set_of_owner howner]
  cases layer with
  | fixed vars => rfl
  | table i =>
    by_cases hi : n = i
    · subst hi
      rw [bindingIn, table_modifyTable_self hn]
      exact Dict.get?_put_of_ne _ _ (h rfl)
    · simp only [bindingIn, table_modifyTable_of_ne hi]

theorem Futureless.writes {own : Nat → Prop} {v : World σ} (h : w.Futureless)
    (hv : w.Writes own v) : v.Futureless := fun i => (hv.bound i).trans (h i)

/-- A write goes to some table. -/
theorem writes_set (scope : Scope) (key : String) (value : Value) (w : World σ) :
    w.Writes (fun _ => True) (w.set scope key value) := .set (fun _ _ => trivial) key value w

theorem writes_newTable (vars : Vars) (w : World σ) :
    w.Writes (fun _ => True) (w.newTable vars).2 := .newTable vars w

end

end World

/-- How a scope is made over scopes that were made before it. -/
inductive Making
  /-- With variables of its own and nothing around it. -/
  | root (vars : Vars)
  | child (parent : Nat)
  /-- With room for futures. -/
  | future (parent : Option Nat)
  | priority (overrides : Vars) (wrapped : Nat)

namespace Making

/-- The scope that a reading goes on to. -/
def outer? : Making → Option Nat
  | root _ => none
  | child parent => some parent
  | future parent => parent
  | priority _ wrapped => some wrapped

/-- The scope only puts overrides before another one. -/
def Wraps : Making → Prop
  | priority .. => True
  | _ => False

/-- The layer that the scope puts before those of the outer one, if it has a certain table. -/
def layer (own : Nat) : Making → Layer
  | priority overrides _ => .fixed overrides
  | _ => .table own

end Making

/-- A scope of a forest and how it was made. -/
structure Member where
  making : Making
  scope : Scope

/-- Scopes in the order in which they were made, over the tables of a world. -/
structure Forest (σ : Type) where
  world : World σ
  made : List Member := []

/-- A step in the history of a forest. -/
inductive ForestStep
  | make (making : Making)
  | set (scope : Nat) (key : String) (value : Value)
  | extend (scope : Nat) (vars : Vars)

namespace Forest

/-- The scope of a number; an empty one where there is none. -/
def scope (F : Forest σ) (s : Nat) : Scope := (F.made[s]?).elim [] Member.scope

def outer? (F : Forest σ) (s : Nat) : Option Nat := (F.made[s]?).bind fun m => m.making.outer?

/-- A new scope over one that is there. -/
def member (F : Forest σ) (making : Making) (own : Nat) : Member :=
  { making, scope := making.layer own :: making.outer?.elim [] F.scope }

/-- Adds a scope with a table of its own. -/
def addTable (F : Forest σ) (making : Making) (vars : Vars) : Forest σ :=
  let (own, world) := F.world.newTable vars
  { world, made := F.made ++ [F.member making own] }

def make (F : Forest σ) : Making → Forest σ
  | .root vars => F.addTable (.root vars) vars
  | .child parent => F.addTable (.child parent) []
  | .future parent => F.addTable (.future parent) []
  | .priority overrides wrapped =>
    { F with made := F.made ++ [F.member (.priority overrides wrapped) 0] }

/-- Does a step; a scope can only be made over one that is there. -/
def step (F : Forest σ) : ForestStep → Forest σ
  | .make making => if making.outer?.all (· < F.made.length) then F.make making else F
  | .set s key value => { F with world := F.world.set (F.scope s) key value }
  | .extend s vars => { F with world := F.world.extend (F.scope s) vars }

/-- The forest that a history leads to from nothing. -/
def grown (state : σ) (history : List ForestStep) : Forest σ :=
  history.foldl step { world := { host := state } }

/-- What a reading in a scope answers. -/
def get (F : Forest σ) (host : Host σ) (s : Nat) (key : String) : Option Value :=
  (((F.scope s).read host key).run F.world).1

/-- The variables in the own table of a scope, if it has one. -/
def ownVars (F : Forest σ) (s : Nat) : Option Vars :=
  match (F.scope s).head? with
  | some (.table n) => some (F.world.table n).vars
  | _ => none

/-- What a scope itself binds a key to, in its table or among its overrides. -/
def binding? (F : Forest σ) (s : Nat) (key : String) : Option Value :=
  (F.scope s).head?.bind (F.world.bindingIn key)

/-- The writes to the first scope go to the second: a scope owns its own, and the owner of
a wrapped scope those of the scope around it. -/
inductive Owns (F : Forest σ) : Nat → Nat → Prop
  | itself {s : Nat} {m : Member} (hm : F.made[s]? = some m) (h : ¬ m.making.Wraps) : Owns F s s
  | wrapped {s o p : Nat} {overrides : Vars} {m : Member} (hm : F.made[s]? = some m)
      (hmaking : m.making = .priority overrides p) (h : Owns F p o) : Owns F s o

/-- A reading of a key comes to a scope before another one binds the key. -/
inductive Reaches (F : Forest σ) (key : String) (o : Nat) : Nat → Prop
  | here : Reaches F key o o
  | outwards {s p : Nat} (houter : F.outer? s = some p) (hfree : F.binding? s key = none)
      (h : Reaches F key o p) : Reaches F key o s

/-- An override between a scope and its owner binds a key. -/
inductive Overridden (F : Forest σ) (key : String) : Nat → Prop
  | here {s p : Nat} {overrides : Vars} {m : Member} (hm : F.made[s]? = some m)
      (hmaking : m.making = .priority overrides p) (h : (Dict.get? overrides key).isSome) :
      Overridden F key s
  | inside {s p : Nat} {overrides : Vars} {m : Member} (hm : F.made[s]? = some m)
      (hmaking : m.making = .priority overrides p) (h : Overridden F key p) : Overridden F key s

/-- What the making of scopes keeps: a scope puts one layer before an older scope, no two
scopes share a table as their own, and nothing is bound to a future. -/
structure Sound (F : Forest σ) : Prop where
  layered : ∀ (s : Nat) (m : Member), F.made[s]? = some m → ∃ own, m = F.member m.making own
  older : ∀ s p, F.outer? s = some p → p < s
  bounded : ∀ s n, (F.scope s).head? = some (.table n) → n < F.world.tables.size
  distinct : ∀ s t n, (F.scope s).head? = some (.table n) →
    (F.scope t).head? = some (.table n) → s = t
  futureless : F.world.Futureless

variable {F G : Forest σ} {s t o p : Nat} {key : String} {value : Value} {m : Member}

theorem scope_eq (hm : F.made[s]? = some m) : F.scope s = m.scope := by
  rw [scope, hm]
  rfl

theorem outer?_eq (hm : F.made[s]? = some m) : F.outer? s = m.making.outer? := by
  rw [outer?, hm]
  rfl

section

variable (hmade : G.made = F.made ++ [m])
include hmade

theorem scope_added : G.scope F.made.length = m.scope := by
  simp [scope, hmade]

theorem scope_of_ne (hs : s ≠ F.made.length) : G.scope s = F.scope s := by
  rcases Nat.lt_or_gt_of_ne hs with hlt | hgt
  · rw [scope, hmade, List.getElem?_append_left hlt, scope]
  · have hlength : (F.made ++ [m]).length ≤ s := by
      rw [List.length_append, List.length_singleton]
      exact hgt
    rw [scope, scope, hmade, List.getElem?_eq_none hlength,
      List.getElem?_eq_none (Nat.le_of_lt hgt)]

theorem member_of_lt {making : Making} (h : ∀ p, making.outer? = some p → p < F.made.length)
    (own : Nat) : G.member making own = F.member making own := by
  unfold member
  cases houter : making.outer? with
  | none => rfl
  | some p =>
    rw [Option.elim_some, Option.elim_some, scope_of_ne hmade (Nat.ne_of_lt (h p houter))]

theorem getElem?_added {m' : Member} (hs : G.made[s]? = some m') :
    s = F.made.length ∧ m' = m ∨ s < F.made.length ∧ F.made[s]? = some m' := by
  rw [hmade, List.getElem?_append] at hs
  split at hs
  next hlt => exact .inr ⟨hlt, hs⟩
  next hle =>
    rw [List.getElem?_singleton] at hs
    split at hs
    next hzero => exact .inl ⟨by omega, (Option.some.inj hs).symm⟩
    next => cases hs

end

theorem Sound.add (h : F.Sound) {making : Making} {own : Nat}
    (hmade : G.made = F.made ++ [F.member making own])
    (hover : ∀ p, making.outer? = some p → p < F.made.length)
    (hsize : F.world.tables.size ≤ G.world.tables.size)
    (hown : ∀ n, making.layer own = .table n → n = F.world.tables.size ∧ n < G.world.tables.size)
    (hquiet : G.world.Futureless) : G.Sound := by
  have hhead : (G.scope F.made.length).head? = some (making.layer own) := by
    rw [scope_added hmade]
    rfl
  have hbound {s n : Nat} (hs : s ≠ F.made.length) (hn : (G.scope s).head? = some (.table n)) :
      n < F.world.tables.size :=
    h.bounded s n (by rw [← scope_of_ne hmade hs, hn])
  have hfresh {s n : Nat} (hs : s = F.made.length) (hn : (G.scope s).head? = some (.table n)) :
      n = F.world.tables.size ∧ n < G.world.tables.size :=
    hown n (Option.some.inj (by rw [← hhead, ← hs, hn]))
  refine ⟨fun s m hm => ?_, fun s p hp => ?_, fun s n hn => ?_, fun s t n hs ht => ?_, hquiet⟩
  · rcases getElem?_added hmade hm with ⟨-, rfl⟩ | ⟨hs, hm⟩
    · exact ⟨own, (member_of_lt hmade hover own).symm⟩
    · obtain ⟨own, hlayer⟩ := h.layered s m hm
      refine ⟨own, hlayer.trans (member_of_lt hmade (fun p hp => ?_) own).symm⟩
      exact Nat.lt_trans (h.older s p (by rw [outer?_eq hm, hp])) hs
  · obtain ⟨m, hm, hp'⟩ := Option.bind_eq_some_iff.mp hp
    rcases getElem?_added hmade hm with ⟨rfl, rfl⟩ | ⟨-, hm⟩
    · exact hover p hp'
    · exact h.older s p (by rw [outer?_eq hm, hp'])
  · by_cases hs : s = F.made.length
    · exact (hfresh hs hn).2
    · exact Nat.lt_of_lt_of_le (hbound hs hn) hsize
  · by_cases hs' : s = F.made.length <;> by_cases ht' : t = F.made.length
    · rw [hs', ht']
    · exact absurd (hfresh hs' hs).1 (Nat.ne_of_lt (hbound ht' ht))
    · exact absurd (hfresh ht' ht).1 (Nat.ne_of_lt (hbound hs' hs))
    · rw [scope_of_ne hmade hs'] at hs
      rw [scope_of_ne hmade ht'] at ht
      exact h.distinct s t n hs ht

theorem Sound.addTable (h : F.Sound) {making : Making} (vars : Vars)
    (hover : ∀ p, making.outer? = some p → p < F.made.length)
    (hlayer : ∀ own, making.layer own = .table own) : (F.addTable making vars).Sound := by
  have hsize : (F.world.newTable vars).2.tables.size = F.world.tables.size + 1 :=
    Array.size_push _
  refine h.add rfl hover ?_ (fun n hn => ?_) (h.futureless.writes (World.writes_newTable vars _))
  · change F.world.tables.size ≤ (F.world.newTable vars).2.tables.size
    omega
  · rw [hlayer, Layer.table.injEq] at hn
    change n = _ ∧ n < (F.world.newTable vars).2.tables.size
    omega

theorem Sound.make (h : F.Sound) {making : Making}
    (hover : ∀ p, making.outer? = some p → p < F.made.length) : (F.make making).Sound := by
  cases making with
  | root vars => exact h.addTable vars hover fun _ => rfl
  | child parent => exact h.addTable [] hover fun _ => rfl
  | future parent => exact h.addTable [] hover fun _ => rfl
  | priority overrides wrapped =>
    exact h.add rfl hover (Nat.le_refl _) (fun n hn => nomatch hn) h.futureless

theorem Sound.set (h : F.Sound) (s : Nat) (key : String) (value : Value) :
    (F.step (.set s key value)).Sound := by
  have hwrites := World.writes_set (F.scope s) key value F.world
  exact ⟨h.layered, h.older, fun t n ht => Nat.lt_of_lt_of_le (h.bounded t n ht) hwrites.size_le,
    h.distinct, h.futureless.writes hwrites⟩

theorem step_extend (F : Forest σ) (s : Nat) (vars : Vars) :
    F.step (.extend s vars) = vars.foldl (fun F p => F.step (.set s p.1 p.2)) F := by
  induction vars generalizing F with
  | nil => rfl
  | cons p rest ih => exact ih (F.step (.set s p.1 p.2))

theorem Sound.step (h : F.Sound) (e : ForestStep) : (F.step e).Sound := by
  cases e with
  | make making =>
    simp only [Forest.step]
    split
    next hover =>
      refine h.make fun p hp => ?_
      simpa [hp] using hover
    next => exact h
  | set s key value => exact h.set s key value
  | extend s vars =>
    rw [step_extend]
    induction vars generalizing F with
    | nil => exact h
    | cons p rest ih => exact ih (h.set s p.1 p.2)

theorem sound_grown (state : σ) (history : List ForestStep) : (grown state history).Sound := by
  have hstart : ({ world := { host := state } } : Forest σ).Sound := by
    refine ⟨fun s m hm => ?_, fun s p hp => ?_, fun s n hn => ?_, fun s t n hn => ?_,
      fun i => rfl⟩
    · cases hm
    · cases hp
    · cases hn
    · cases hn
  unfold grown
  generalize ({ world := { host := state } } : Forest σ) = F at hstart
  induction history generalizing F with
  | nil => exact hstart
  | cons e rest ih => exact ih _ (hstart.step e)

/-- A reading answers the scope's own binding, or what the outer scope answers. -/
theorem Sound.get_eq (h : F.Sound) (host : Host σ) (s : Nat) (key : String) :
    F.get host s key = (F.binding? s key).or ((F.outer? s).bind fun p => F.get host p key) := by
  unfold get
  simp only [h.futureless.run_read]
  cases hm : F.made[s]? with
  | none => simp [scope, binding?, outer?, hm, World.lookup]
  | some m =>
    obtain ⟨own, hlayer⟩ := h.layered s m hm
    have hscope : F.scope s = m.making.layer own :: m.making.outer?.elim [] F.scope := by
      rw [scope_eq hm, hlayer]
      rfl
    rw [binding?, hscope, outer?_eq hm]
    simp only [World.lookup, List.head?_cons, Option.bind_some]
    cases m.making.outer? <;> rfl

/-- What a scope itself binds does not depend on the order of the readings, so they are
compared from the inside out. -/
theorem get_induction (hF : F.Sound) {motive : Nat → Prop}
    (h : ∀ s, (∀ p, F.outer? s = some p → motive p) → motive s) (s : Nat) : motive s := by
  induction s using Nat.strongRecOn with
  | _ s ih => exact h s fun p hp => ih p (hF.older s p hp)

/-- Who owns the writes is a matter of how the scopes were made. -/
theorem Owns.of_made (h : F.Owns s o) (hmade : G.made = F.made) : G.Owns s o := by
  induction h with
  | itself hm hwraps => exact .itself (hmade ▸ hm) hwraps
  | wrapped hm hmaking _ ih => exact .wrapped (hmade ▸ hm) hmaking ih

theorem Owns.exists_table (h : F.Owns s o) (hF : F.Sound) :
    ∃ n, (F.scope s).owner? = some n ∧ (F.scope o).head? = some (.table n) := by
  induction h with
  | @itself s m hm hwraps =>
    obtain ⟨own, hlayer⟩ := hF.layered s m hm
    rw [scope_eq hm, hlayer]
    cases hmaking : m.making with
    | priority overrides p =>
      rw [hmaking] at hwraps
      exact absurd trivial hwraps
    | root | child | future => exact ⟨own, rfl, rfl⟩
  | @wrapped s o p overrides m hm hmaking _ ih =>
    obtain ⟨n, howner, hhead⟩ := ih
    obtain ⟨own, hlayer⟩ := hF.layered s m hm
    refine ⟨n, ?_, hhead⟩
    rw [scope_eq hm, hlayer, hmaking]
    exact howner

theorem Owns.exists_vars (h : F.Owns s o) (hF : F.Sound) : ∃ vars, F.ownVars o = some vars := by
  obtain ⟨n, -, hhead⟩ := h.exists_table hF
  exact ⟨_, by rw [ownVars, hhead]⟩

theorem Owns.not_wraps (h : F.Owns s o) :
    ∀ m, F.made[o]? = some m → ¬ m.making.Wraps := by
  induction h with
  | itself hm hwraps =>
    intro m hm'
    rw [hm, Option.some.injEq] at hm'
    exact hm' ▸ hwraps
  | wrapped _ _ _ ih => exact ih

theorem Owns.eq_of_not_wraps (h : F.Owns s o) (hm : F.made[s]? = some m)
    (hwraps : ¬ m.making.Wraps) : o = s := by
  cases h with
  | itself => rfl
  | wrapped hm' hmaking =>
    rw [hm, Option.some.injEq] at hm'
    rw [hm', hmaking] at hwraps
    exact absurd trivial hwraps

theorem Owns.inside (h : F.Owns s o) (hm : F.made[s]? = some m) {overrides : Vars}
    (hmaking : m.making = .priority overrides p) : F.Owns p o := by
  cases h with
  | itself hm' hwraps =>
    rw [hm, Option.some.injEq] at hm'
    rw [← hm', hmaking] at hwraps
    exact absurd trivial hwraps
  | wrapped hm' hmaking' hinner =>
    rw [hm, Option.some.injEq] at hm'
    rw [← hm', hmaking, Making.priority.injEq] at hmaking'
    exact hmaking'.2 ▸ hinner

theorem Owns.unique (h : F.Owns s o) {o' : Nat} (h' : F.Owns s o') : o' = o := by
  induction h with
  | itself hm hwraps => exact h'.eq_of_not_wraps hm hwraps
  | wrapped hm hmaking _ ih => exact ih (h'.inside hm hmaking)

theorem Sound.exists_owner (h : F.Sound) (hs : s < F.made.length) : ∃ o, F.Owns s o := by
  induction s using Nat.strongRecOn with
  | _ s ih =>
    have hm : F.made[s]? = some F.made[s] := List.getElem?_eq_getElem hs
    cases hmaking : F.made[s].making with
    | root | child | future => exact ⟨s, .itself hm (by rw [hmaking]; exact id)⟩
    | priority overrides p =>
      have hps : p < s := h.older s p (by rw [outer?_eq hm, hmaking]; rfl)
      obtain ⟨o, ho⟩ := ih p hps (Nat.lt_trans hps hs)
      exact ⟨o, .wrapped hm hmaking ho⟩

section

variable (hF : F.Sound) (ho : F.Owns s o) (key : String) (value : Value)
include hF ho

theorem binding?_set_self : (F.step (.set s key value)).binding? o key = some value := by
  obtain ⟨n, howner, hhead⟩ := ho.exists_table hF
  change (F.scope o).head?.bind _ = _
  rw [hhead]
  exact World.bindingIn_set_self howner (hF.bounded o n hhead) key value

theorem binding?_set_of_ne {key : String} {other : String} (h : t = o → other ≠ key) :
    (F.step (.set s key value)).binding? t other = F.binding? t other := by
  obtain ⟨n, howner, hhead⟩ := ho.exists_table hF
  change (F.scope t).head?.bind _ = (F.scope t).head?.bind _
  cases ht : (F.scope t).head? with
  | none => rfl
  | some layer =>
    refine World.bindingIn_set_of_ne howner (hF.bounded o n hhead) ?_ value
    rintro rfl
    exact h (hF.distinct t o n ht hhead)

theorem ownVars_set_self : ∃ vars, F.ownVars o = some vars ∧
    (F.step (.set s key value)).ownVars o = some (vars.put key value) := by
  obtain ⟨n, howner, hhead⟩ := ho.exists_table hF
  refine ⟨(F.world.table n).vars, by rw [ownVars, hhead], ?_⟩
  have hhead' : ((F.step (.set s key value)).scope o).head? = some (.table n) := hhead
  have hworld : (F.step (.set s key value)).world =
      F.world.modifyTable n fun t => { t with vars := t.vars.put key value } :=
    World.set_of_owner howner key value
  rw [ownVars, hhead', hworld]
  simp only [World.table_modifyTable_self (hF.bounded o n hhead)]

theorem ownVars_set_of_ne (h : t ≠ o) :
    (F.step (.set s key value)).ownVars t = F.ownVars t := by
  obtain ⟨n, howner, hhead⟩ := ho.exists_table hF
  have hworld : (F.step (.set s key value)).world =
      F.world.modifyTable n fun t => { t with vars := t.vars.put key value } :=
    World.set_of_owner howner key value
  change (match (F.scope t).head? with | some (.table i) => _ | _ => none) = _
  rw [hworld, ownVars]
  split
  next i ht =>
    have hne : n ≠ i := by
      rintro rfl
      exact h (hF.distinct t o n ht hhead)
    simp only [World.table_modifyTable_of_ne hne]
  next => rfl

/-- Readings of other keys do not see the write. -/
theorem get_set_of_ne {other : String} (h : other ≠ key) (t : Nat) :
    (F.step (.set s key value)).get host t other = F.get host t other := by
  induction t using get_induction hF with
  | _ t ih =>
    rw [(hF.set s key value).get_eq, hF.get_eq, binding?_set_of_ne hF ho value fun _ => h]
    congr 1
    exact Option.bind_congr fun p hp => ih p hp

/-- Readings that come to the owner see the write. -/
theorem get_set_of_reaches (h : F.Reaches key o t) :
    (F.step (.set s key value)).get host t key = some value := by
  induction h with
  | here => rw [(hF.set s key value).get_eq, binding?_set_self hF ho, Option.some_or]
  | @outwards t p houter hfree _ ih =>
    rw [(hF.set s key value).get_eq]
    by_cases ht : t = o
    · rw [ht, binding?_set_self hF ho, Option.some_or]
    · have houter' : (F.step (.set s key value)).outer? t = some p := houter
      rw [binding?_set_of_ne hF ho value fun h => absurd h ht, hfree, houter', Option.none_or]
      exact ih

/-- Readings that end before the owner do not see the write. -/
theorem get_set_of_not_reaches (h : ¬ F.Reaches key o t) :
    (F.step (.set s key value)).get host t key = F.get host t key := by
  induction t using get_induction hF with
  | _ t ih =>
    have hne : t ≠ o := by
      rintro rfl
      exact h .here
    rw [(hF.set s key value).get_eq, hF.get_eq,
      binding?_set_of_ne hF ho value fun ht => absurd ht hne]
    cases hfree : F.binding? t key with
    | some bound => rfl
    | none =>
      congr 1
      exact Option.bind_congr fun p hp => ih p hp fun hreach => h (.outwards hp hfree hreach)

end

theorem Owns.reaches (h : F.Owns s o) (hF : F.Sound) (hfree : ¬ F.Overridden key s) :
    F.Reaches key o s := by
  induction h with
  | itself => exact .here
  | @wrapped s o p overrides m hm hmaking _ ih =>
    obtain ⟨own, hlayer⟩ := hF.layered s m hm
    refine .outwards (by rw [outer?_eq hm, hmaking]; rfl) ?_
      (ih fun hp => hfree (.inside hm hmaking hp))
    rw [binding?, scope_eq hm, hlayer, hmaking]
    exact Option.not_isSome_iff_eq_none.mp fun h => hfree (.here hm hmaking h)

theorem Owns.not_reaches (h : F.Owns s o) (hF : F.Sound) (hover : F.Overridden key s) :
    ¬ F.Reaches key o s := by
  induction hover with
  | @here s p overrides m hm hmaking hbound =>
    intro hreach
    cases hreach with
    | here => exact h.not_wraps m hm (by rw [hmaking]; trivial)
    | outwards _ hfree _ =>
      obtain ⟨own, hlayer⟩ := hF.layered s m hm
      rw [binding?, scope_eq hm, hlayer, hmaking] at hfree
      exact Option.isSome_iff_ne_none.mp hbound hfree
  | @inside s p overrides m hm hmaking _ ih =>
    intro hreach
    cases hreach with
    | here => exact h.not_wraps m hm (by rw [hmaking]; trivial)
    | outwards houter _ hreach =>
      rw [outer?_eq hm, hmaking] at houter
      cases houter
      exact ih (h.inside hm hmaking) hreach

section

variable (hF : F.Sound) (ho : F.Owns s o) (vars : Vars)
include hF ho

theorem ownVars_extend_self : ∃ old, F.ownVars o = some old ∧
    (F.step (.extend s vars)).ownVars o = some (old.extend vars) := by
  rw [step_extend]
  induction vars generalizing F with
  | nil =>
    obtain ⟨old, hold⟩ := ho.exists_vars hF
    exact ⟨old, hold, hold⟩
  | cons p rest ih =>
    obtain ⟨old, hold, hput⟩ := ownVars_set_self hF ho p.1 p.2
    obtain ⟨next, hnext, hrest⟩ := ih (hF.set s p.1 p.2) (ho.of_made rfl)
    cases hput.symm.trans hnext
    exact ⟨old, hold, hrest⟩

theorem ownVars_extend_of_ne (h : t ≠ o) :
    (F.step (.extend s vars)).ownVars t = F.ownVars t := by
  rw [step_extend]
  induction vars generalizing F with
  | nil => rfl
  | cons p rest ih =>
    exact (ih (hF.set s p.1 p.2) (ho.of_made rfl)).trans (ownVars_set_of_ne hF ho p.1 p.2 h)

theorem get_extend_of_notMem (h : key ∉ Dict.keys vars) (t : Nat) :
    (F.step (.extend s vars)).get host t key = F.get host t key := by
  rw [step_extend]
  induction vars generalizing F with
  | nil => rfl
  | cons p rest ih =>
    obtain ⟨hkey, hrest⟩ : key ≠ p.1 ∧ key ∉ Dict.keys rest := not_or.mp (h ∘ List.mem_cons.mpr)
    exact (ih (hF.set s p.1 p.2) (ho.of_made rfl) hrest).trans (get_set_of_ne hF ho p.1 p.2 hkey t)

end

/-- After any history of a forest, a write to a scope changes the table of its owner and no
other, at the key that is written; the readings that change are those of this key which
come to the owner before another binding, and the scope itself reads what was written
unless one of its overrides precedes its owner. -/
theorem write_reaches_owner_only (host : Host σ) (state : σ) (history : List ForestStep) {s : Nat}
    (hs : s < (grown state history).made.length) :
    let F := grown state history
    ∃ o, F.Owns s o ∧ (∀ p, F.Owns s p → p = o) ∧
      (∀ key value, let G := F.step (.set s key value)
        G.made = F.made ∧
        (∃ old, F.ownVars o = some old ∧ G.ownVars o = some (old.put key value)) ∧
        (∀ t, t ≠ o → G.ownVars t = F.ownVars t) ∧
        (∀ t other, other ≠ key → G.get host t other = F.get host t other) ∧
        (∀ t, F.Reaches key o t → G.get host t key = some value) ∧
        (∀ t, ¬ F.Reaches key o t → G.get host t key = F.get host t key) ∧
        (¬ F.Overridden key s → G.get host s key = some value) ∧
        (F.Overridden key s → G.get host s key = F.get host s key)) ∧
      ∀ vars, let G := F.step (.extend s vars)
        G.made = F.made ∧
        (∃ old, F.ownVars o = some old ∧ G.ownVars o = some (old.extend vars)) ∧
        (∀ t, t ≠ o → G.ownVars t = F.ownVars t) ∧
        ∀ t key, key ∉ Dict.keys vars → G.get host t key = F.get host t key := by
  intro F
  have hF : F.Sound := sound_grown state history
  obtain ⟨o, ho⟩ := hF.exists_owner hs
  refine ⟨o, ho, fun p hp => ho.unique hp, fun key value => ?_, fun vars => ?_⟩
  · refine ⟨rfl, ownVars_set_self hF ho key value, fun t => ownVars_set_of_ne hF ho key value,
      fun t other h => get_set_of_ne hF ho key value h t,
      fun t => get_set_of_reaches hF ho key value,
      fun t => get_set_of_not_reaches hF ho key value, fun hfree => ?_, fun hover => ?_⟩
    · exact get_set_of_reaches hF ho key value (ho.reaches hF hfree)
    · exact get_set_of_not_reaches hF ho key value (ho.not_reaches hF hover)
  · exact ⟨rfl, ownVars_extend_self hF ho vars, fun t => ownVars_extend_of_ne hF ho vars,
      fun t key h => get_extend_of_notMem hF ho vars h t⟩

/-- A scope with room for futures over overrides of a child of a root. -/
def layeredHistory : List ForestStep :=
  [.make (.root [("x", .int 1)]), .make (.child 0), .make (.priority [("x", .int 9)] 1),
    .make (.future (some 2)), .set 3 "z" (.bool true), .extend 0 [("y", .int 2), ("x", .int 3)]]

theorem write_reaches_owner_only_layered :
    let F := grown () layeredHistory
    2 < F.made.length ∧ F.Overridden "x" 2 ∧ ¬ F.Overridden "y" 2 ∧
      (F.step (.set 2 "x" .nil)).get World.bareHost 2 "x" = F.get World.bareHost 2 "x" ∧
      (F.step (.set 2 "y" .nil)).get World.bareHost 2 "y" = some .nil := by
  intro F
  have hs : 2 < F.made.length := by decide
  have hover : F.Overridden "x" 2 := .here rfl rfl rfl
  have hfree : ¬ F.Overridden "y" 2 := by
    rintro (⟨hm, hmaking, h⟩ | ⟨hm, hmaking, h⟩)
    · cases hm
      cases hmaking
      cases h
    · cases hm
      cases hmaking
      rcases h with ⟨hm, hmaking, -⟩ | ⟨hm, hmaking, -⟩
      all_goals
        cases hm
        cases hmaking
  obtain ⟨o, -, -, hset, -⟩ := write_reaches_owner_only World.bareHost () layeredHistory hs
  exact ⟨hs, hover, hfree, (hset "x" .nil).2.2.2.2.2.2.2 hover, (hset "y" .nil).2.2.2.2.2.2.1 hfree⟩

end Forest

end PlaybookRunner
