import PlaybookRunner.Proofs.ArgumentTexts
import PlaybookRunner.Proofs.Confluence
import PlaybookRunner.Proofs.NestedScopes
import PlaybookRunner.Proofs.ValueTrees

/-!
# Binding facts

The facts of a command are its parameters as they come back from their tree: the same keys,
each with a value equal to its own. They go to the table that owns the writes of the scope,
and nowhere else. Without facts, or with free-form text among them, the command fails and
leaves the world as it is.
-/

namespace PlaybookRunner

variable {σ : Type}

namespace Dict

variable {α : Type}

theorem get?_of_perm {d d' : Dict α} (h : d.Perm d') (hd : d'.keys.Nodup) (key : String) :
    d.get? key = d'.get? key := by
  cases hkey : d'.get? key with
  | some value => exact get?_of_mem (nodup_of_perm h hd) (h.mem_iff.mpr (mem_of_get? hkey))
  | none =>
    refine get?_eq_none fun hmem => ?_
    obtain ⟨⟨k, value⟩, hp, rfl⟩ := List.mem_map.mp hmem
    rw [get?_of_mem hd (h.mem_iff.mp hp)] at hkey
    cases hkey

theorem get?_mapValues {β : Type} (f : α → β) (d : Dict α) (key : String) :
    (d.mapValues f).get? key = (d.get? key).map f := lookup_map_values f d key

end Dict

/-- A parameter as it comes back from its tree. -/
def Value.returned (v : Value) : Value := decode v.toJson

namespace Command

/-- Facts are the parameters as they come back, in whatever order. -/
theorem bindSetFact_eq {params : Vars} (hkeys : params.keys.Nodup) :
    ∃ facts : Vars, bindSetFact params = .ok (.setFact facts) ∧
      facts.Perm (params.mapValues Value.returned) := by
  have htrees : (params.mapValues Value.toJson).keys.Nodup := by rwa [Dict.keys_mapValues]
  have hsorted := Dict.sorted_perm htrees
  have hfacts : ((Dict.sorted (params.mapValues Value.toJson)).mapValues Value.decode).keys.Nodup := by
    rw [Dict.keys_mapValues]
    exact Dict.nodup_of_perm hsorted htrees
  refine ⟨(Dict.sorted (params.mapValues Value.toJson)).mapValues Value.decode, ?_, ?_⟩
  · rw [bindSetFact, Value.toJson, Value.decode, Value.fieldsToJson_eq, Value.decodeFields_eq,
      Dict.ofPairs_of_nodup hfacts]
  · have hreturned : params.mapValues Value.returned =
        (params.mapValues Value.toJson).mapValues Value.decode :=
      (Dict.mapValues_mapValues Value.toJson Value.decode params).symm
    rw [hreturned]
    exact hsorted.map _

section

variable {host : Host σ} {scope : Scope} {task : Task} {facts : Vars}

/-- Accepted facts are bound in the scope and answered as they are. -/
theorem run_setFact (hraw : Dict.get? facts Arguments.rawKey = none) (hne : facts ≠ [])
    (w : World σ) :
    ((setFact facts).run host scope task).run w = (.ok { data := facts }, w.extend scope facts) := by
  change (runSetFact scope facts).run w = _
  have hempty : ¬ facts.isEmpty = true := by simpa using hne
  simp only [runSetFact, hraw, if_neg hempty]
  rfl

/-- Facts that are not accepted leave the world as it is. -/
theorem run_setFact_refused
    (h : facts = [] ∨ (Dict.get? facts Arguments.rawKey).isSome = true) (w : World σ) :
    ∃ message, ((setFact facts).run host scope task).run w =
      (.error (.invalidParameter message), w) := by
  change ∃ message, (runSetFact scope facts).run w = _
  unfold runSetFact
  cases hraw : Dict.get? facts Arguments.rawKey with
  | some raw => exact ⟨_, rfl⟩
  | none =>
    obtain rfl : facts = [] := by simpa [hraw] using h
    exact ⟨_, rfl⟩

end

end Command

/-- The table binds each of the variables to an equal value, and nothing else has changed. -/
structure World.Binds (w : World σ) (n : Nat) (vars : Vars) (v : World σ) : Prop where
  bound : ∀ key value, vars.get? key = some value →
    ∃ found, (v.table n).vars.get? key = some found ∧ found.same value = true
  unbound : ∀ key ∉ vars.keys, (v.table n).vars.get? key = (w.table n).vars.get? key
  futures : (v.table n).futures = (w.table n).futures
  others : ∀ i, i ≠ n → v.table i = w.table i
  size : v.tables.size = w.tables.size
  elsewhere : { v with tables := w.tables } = w

/-- Facts that come back from their tree bind the parameters that they were. -/
theorem World.binds_extend {w : World σ} {scope : Scope} {n : Nat} {params facts : Vars}
    (howner : scope.owner? = some n) (hn : n < w.tables.size) (hkeys : facts.keys.Nodup)
    (hget : ∀ key, facts.get? key = (params.get? key).map Value.returned)
    (hplain : ∀ p ∈ params, p.2.plain = true) : w.Binds n params (w.extend scope facts) := by
  have hextend : w.extend scope facts =
      w.modifyTable n fun t => { t with vars := t.vars.extend facts } := extend_of_owner howner facts
  have htable : (w.extend scope facts).table n =
      { w.table n with vars := (w.table n).vars.extend facts } := by
    rw [hextend, table_modifyTable_self hn]
  have hbound (key : String) : ((w.extend scope facts).table n).vars.get? key =
      ((params.get? key).map Value.returned).or ((w.table n).vars.get? key) := by
    rw [htable, Dict.get?_extend hkeys, hget]
  constructor
  case bound =>
    intro key value hvalue
    refine ⟨value.returned, by rw [hbound, hvalue]; rfl, ?_⟩
    exact Value.same_decode_toJson (hplain _ (Dict.mem_of_get? hvalue))
  case unbound =>
    intro key hkey
    rw [hbound, Dict.get?_eq_none hkey]
    rfl
  case futures => rw [htable]
  case others =>
    intro i hi
    rw [hextend, table_modifyTable_of_ne hi.symm]
  case size => rw [hextend, size_modifyTable]
  case elsewhere => rw [hextend]; rfl

namespace Registry

/-- Facts bound through a registry arrive in the table that owns the writes of the scope, each
with a value equal to its own, and nothing else changes; without facts, or with free-form text
among them, the command fails and nothing changes at all. -/
theorem facts_reach_owner {registry : Registry}
    (hregistry : registry.get? "set_fact" = some Command.bindSetFact) (host : Host σ)
    (w : World σ) (task : Task) {scope : Scope} {n : Nat} (howner : scope.owner? = some n)
    (hn : n < w.tables.size) {params : Vars} (hkeys : params.keys.Nodup) :
    ∃ command, registry.bind "set_fact" params = .ok command ∧
      (params ≠ [] → params.get? Arguments.rawKey = none → (∀ p ∈ params, p.2.plain = true) →
        ∃ data v, (command.run host scope task).run w =
            (.ok { changed := false, failed := false, data }, v) ∧
          Value.sameVars data params = true ∧ w.Binds n params v) ∧
      (params = [] ∨ (params.get? Arguments.rawKey).isSome = true →
        ∃ message, (command.run host scope task).run w =
          (.error (.invalidParameter message), w)) := by
  obtain ⟨facts, hfacts, hperm⟩ := Command.bindSetFact_eq hkeys
  have hreturned : (params.mapValues Value.returned).keys.Nodup := by rwa [Dict.keys_mapValues]
  have hnodup : facts.keys.Nodup := Dict.nodup_of_perm hperm hreturned
  have hget (key : String) : facts.get? key = (params.get? key).map Value.returned :=
    (Dict.get?_of_perm hperm hreturned key).trans (Dict.get?_mapValues _ params key)
  have hempty : facts = [] ↔ params = [] := by
    rw [← List.length_eq_zero_iff, ← List.length_eq_zero_iff, hperm.length_eq, Dict.mapValues,
      List.length_map]
  have hbind : registry.bind "set_fact" params = .ok (.setFact facts) := by
    simp only [bind, hregistry, hfacts]
  refine ⟨_, hbind, fun hne hraw hplain => ?_, fun h => ?_⟩
  · have hfree : facts.get? Arguments.rawKey = none := by rw [hget, hraw]; rfl
    refine ⟨facts, w.extend scope facts, Command.run_setFact hfree (mt hempty.mp hne) w, ?_, ?_⟩
    · exact Value.sameVars_of_perm hperm hkeys fun p hp => Value.same_decode_toJson (hplain p hp)
    · exact World.binds_extend howner hn hnodup hget hplain
  · have hrefused : facts = [] ∨ (facts.get? Arguments.rawKey).isSome = true := by
      rwa [hempty, hget, Option.isSome_map]
    exact Command.run_setFact_refused hrefused w

/-- A table of a call between the overrides of a task and the table of its play. -/
def enclosed : World Unit where
  tables := #[{ vars := [("k", .nil)] }, { vars := [("k", .int 1), ("other", .int 2)] }]
  host := ()

/-- The scope of a task in the call. -/
def enclosedScope : Scope := [.fixed [("k", .bool true)], .table 1, .table 0]

/-- The keys of the nested map do not ascend. -/
def nestedFacts : Vars :=
  [("k", .map [("b", .list [.float 0.5, .nil]), ("a", .int (-9223372036854775808))]),
    ("fresh", .string "k")]

/-- A fact and a text besides it. -/
def freeText : Vars := [("k", .result true false []), ("_raw", .string "free text")]

theorem facts_reach_owner_enclosed :
    (builtins.get? "set_fact" = some Command.bindSetFact ∧ enclosedScope.owner? = some 1 ∧
      1 < enclosed.tables.size ∧ nestedFacts.keys.Nodup ∧ freeText.keys.Nodup) ∧
      (∃ command, builtins.bind "set_fact" nestedFacts = .ok command ∧
        ∃ data v, (command.run World.bareHost enclosedScope default).run enclosed =
            (.ok { changed := false, failed := false, data }, v) ∧
          Value.sameVars data nestedFacts = true ∧ enclosed.Binds 1 nestedFacts v) ∧
      ∃ command, builtins.bind "set_fact" freeText = .ok command ∧
        ∃ message, (command.run World.bareHost enclosedScope default).run enclosed =
          (.error (.invalidParameter message), enclosed) := by
  have hregistry : builtins.get? "set_fact" = some Command.bindSetFact := rfl
  have howner : enclosedScope.owner? = some 1 := rfl
  have hsize : 1 < enclosed.tables.size := by decide
  have hnested : nestedFacts.keys.Nodup := by decide
  have hfree : freeText.keys.Nodup := by decide
  refine ⟨⟨hregistry, howner, hsize, hnested, hfree⟩, ?_, ?_⟩
  · obtain ⟨command, hbind, hbinds, -⟩ :=
      facts_reach_owner hregistry World.bareHost enclosed default howner hsize hnested
    have hplain : ∀ p ∈ nestedFacts, p.2.plain = true := by decide +kernel
    exact ⟨command, hbind, hbinds (by decide) rfl hplain⟩
  · obtain ⟨command, hbind, -, hrefused⟩ :=
      facts_reach_owner hregistry World.bareHost enclosed default howner hsize hfree
    exact ⟨command, hbind, hrefused (.inr rfl)⟩

end Registry

end PlaybookRunner
