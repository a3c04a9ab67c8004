import Mathlib.Data.List.Perm.Basic
import PlaybookRunner.Playbook.Record
import PlaybookRunner.Proofs.ValueTrees

/-!
# Playbooks and their trees

A playbook is what its tree is read as, whether the keys of the tree stand in
the order in which they are written or in ascending order. In the first case
the playbooks are the same part by part, in the second up to the order of
variables and modules.
-/

namespace PlaybookRunner

namespace Json

theorem canonicalItems_eq (items : List Json) : canonicalItems items = items.map canonical :=
  Value.eq_map rfl (fun _ _ => rfl) items

theorem canonicalFields_eq (fields : List (String × Json)) :
    canonicalFields fields = Dict.mapValues canonical fields :=
  Value.eq_map rfl (fun _ _ => rfl) fields

theorem canonical_array (items : List Json) :
    (array items).canonical = array (items.map canonical) := by
  rw [canonical, canonicalItems_eq]

/-- The fields of an object as its canonical form has them. -/
def arranged (fields : Dict Json) : Dict Json := Dict.sorted (fields.mapValues canonical)

theorem canonical_object (fields : Dict Json) :
    (object fields).canonical = object (arranged fields) := by
  rw [canonical, canonicalFields_eq]
  rfl

section

variable {fields : Dict Json}

theorem arranged_perm (h : fields.keys.Nodup) :
    (arranged fields).Perm (fields.mapValues canonical) :=
  Dict.sorted_perm ((Dict.keys_mapValues canonical fields).symm ▸ h)

theorem nodup_arranged (h : fields.keys.Nodup) : (arranged fields).keys.Nodup :=
  Dict.nodup_of_perm (arranged_perm h) ((Dict.keys_mapValues canonical fields).symm ▸ h)

theorem get?_arranged (h : fields.keys.Nodup) {name : String} {tree : Json}
    (hget : fields.get? name = some tree) : (arranged fields).get? name = some tree.canonical := by
  refine Dict.get?_of_mem (nodup_arranged h) ((arranged_perm h).mem_iff.mpr ?_)
  exact Dict.mem_mapValues.mpr ⟨tree, Dict.mem_of_get? hget, rfl⟩

theorem keysOnce_of_nodup (names : List String) (h : fields.keys.Nodup) :
    keysOnce names fields = true := by
  induction fields with
  | nil => rfl
  | cons p rest ih =>
    obtain ⟨key, tree⟩ := p
    obtain ⟨hkey, hrest⟩ := List.nodup_cons.mp h
    have hother : rest.any (fun q => q.1 == key) = false := by
      refine List.any_eq_false.mpr fun q hq hname => hkey ?_
      exact List.mem_map.mpr ⟨q, hq, by simpa using hname⟩
    simp [keysOnce, hother, ih hrest]

theorem parts?_of_nodup (names : List String) (h : fields.keys.Nodup) :
    (object fields).parts? names = some fields := by
  rw [parts?, if_pos (keysOnce_of_nodup names h)]

end

end Json

namespace Value

theorem canonical_floatTree (x : Float) : (floatTree x).canonical = floatTree x := by
  rw [floatTree]
  split <;> rfl

/-- The plain tree of a value without a result is the canonical form of its record tree. -/
theorem canonical_toRecord {v : Value} (h : v.plain = true) : v.toRecord.canonical = v.toJson := by
  induction v using inductionOn with
  | nil => rfl
  | bool b => rfl
  | int n => rfl
  | float x => exact canonical_floatTree x
  | string s => rfl
  | list items ih =>
    have hitems := plainItems_iff.mp h
    rw [toRecord, toJson, itemsToRecord_eq, itemsToJson_eq, Json.canonical_array, List.map_map]
    exact congrArg Json.array (List.map_congr_left fun v hv => ih v hv (hitems v hv))
  | map fields ih =>
    obtain ⟨-, hfields⟩ := plain_map_iff.mp h
    rw [toRecord, toJson, fieldsToRecord_eq, fieldsToJson_eq, Json.canonical_object,
      Json.arranged, Dict.mapValues_mapValues]
    refine congrArg (fun trees => Json.object (Dict.sorted trees)) (Dict.mapValues_congr ?_)
    exact fun p hp => ih p hp (hfields p hp)
  | result changed failed data ih => cases h

theorem sameItems_of_forall₂ {as bs : List Value}
    (h : List.Forall₂ (fun a b => a.same b = true) as bs) : sameItems as bs = true := by
  induction h with
  | nil => rfl
  | cons hab _ ih => rw [sameItems, hab, ih, Bool.and_true]

end Value

/-- Of two readings of a part, that of the tree as written gives `a` and that of its canonical form
something of the same kind. -/
structure Recovered {α : Type} (Same : α → α → Prop) (written arranged : Option α) (a : α) :
    Prop where
  written : written = some a
  arranged : ∃ b, arranged = some b ∧ Same b a

namespace Recovered

variable {α β : Type} {S : α → α → Prop} {T : β → β → Prop} {x y : Option α} {a b : α} {c : β}

theorem pure (h : S b a) : Recovered S (some a) (some b) a := ⟨rfl, b, rfl, h⟩

theorem bind {f g : α → Option β} (h : Recovered S x y a)
    (hrest : ∀ b, S b a → Recovered T (f a) (g b) c) : Recovered T (x >>= f) (y >>= g) c := by
  obtain ⟨rfl, b, rfl, hba⟩ := h
  exact hrest b hba

theorem map {f : α → β} (h : Recovered S x y a) (hsame : ∀ b, S b a → T (f b) (f a)) :
    Recovered T (x.map f) (y.map f) (f a) := by
  obtain ⟨rfl, b, rfl, hba⟩ := h
  exact pure (hsame b hba)

theorem mapM {f g : α → Option α} {as : List α}
    (h : ∀ a ∈ as, Recovered S (f a) (g a) a) :
    Recovered (List.Forall₂ S) (as.mapM f) (as.mapM g) as := by
  induction as with
  | nil => exact .pure .nil
  | cons a rest ih =>
    obtain ⟨ha, hrest⟩ := List.forall_mem_cons.mp h
    rw [List.mapM_cons, List.mapM_cons]
    exact ha.bind fun b hba => (ih hrest).bind fun bs hbs => .pure (.cons hba hbs)

end Recovered

theorem exists_of_mem_forall₂ {α β : Type} {R : α → β → Prop} {as : List α} {bs : List β}
    (h : List.Forall₂ R as bs) {a : α} (ha : a ∈ as) : ∃ b ∈ bs, R a b := by
  induction h with
  | nil => cases ha
  | @cons c b cs bs hcb _ ih =>
    rcases List.mem_cons.mp ha with rfl | ha
    · exact ⟨b, List.mem_cons_self, hcb⟩
    · obtain ⟨b, hb, hab⟩ := ih ha
      exact ⟨b, List.mem_cons_of_mem _ hb, hab⟩

/-- Reading a list in another order gives what is read of it in that order. -/
theorem exists_mapM_of_perm {α β : Type} {f : α → Option β} {as bs : List α} {rs : List β}
    (hperm : as.Perm bs) (h : bs.mapM f = some rs) :
    ∃ qs, as.mapM f = some qs ∧ qs.Perm rs := by
  induction hperm generalizing rs with
  | nil => exact ⟨rs, h, .rfl⟩
  | cons a _ ih =>
    simp only [List.mapM_cons, Option.bind_eq_bind, Option.bind_eq_some_iff,
      Option.pure_def] at h ⊢
    obtain ⟨r, hr, rest, hrest, heq⟩ := h
    obtain ⟨qs, hqs, hperm⟩ := ih hrest
    cases heq
    exact ⟨r :: qs, ⟨r, hr, qs, hqs, rfl⟩, hperm.cons r⟩
  | swap a b l =>
    simp only [List.mapM_cons, Option.bind_eq_bind, Option.bind_eq_some_iff,
      Option.pure_def] at h ⊢
    obtain ⟨r, hr, _, ⟨q, hq, rest, hrest, hinner⟩, heq⟩ := h
    cases hinner
    cases heq
    exact ⟨q :: r :: rest, ⟨q, hq, _, ⟨r, hr, rest, hrest, rfl⟩, rfl⟩, .swap ..⟩
  | trans _ _ ih₁ ih₂ =>
    obtain ⟨qs, hqs, hperm⟩ := ih₂ h
    obtain ⟨ps, hps, hperm'⟩ := ih₁ hqs
    exact ⟨ps, hps, hperm'.trans hperm⟩

/-- Dictionaries with the same keys, in whatever order, and values that agree. -/
def Dict.Alike {α : Type} (Same : α → α → Prop) (as bs : Dict α) : Prop :=
  as.length = bs.length ∧ ∀ p ∈ as, ∃ b, bs.get? p.1 = some b ∧ Same p.2 b

theorem Dict.alike_of_perm {α : Type} {Same : α → α → Prop} {as bs cs : Dict α}
    (hperm : as.Perm bs) (hsame : List.Forall₂ (fun q p => q.1 = p.1 ∧ Same q.2 p.2) bs cs)
    (hkeys : cs.keys.Nodup) : as.keys.Nodup ∧ as.Alike Same cs := by
  have hbs : bs.keys = cs.keys := by
    rw [← List.forall₂_eq_eq_eq]
    exact List.forall₂_map_left_iff.mpr
      (List.forall₂_map_right_iff.mpr (hsame.imp fun _ _ h => h.1))
  refine ⟨Dict.nodup_of_perm hperm (hbs ▸ hkeys), hperm.length_eq.trans hsame.length_eq, ?_⟩
  intro q hq
  obtain ⟨⟨name, c⟩, hc, hname, hqc⟩ := exists_of_mem_forall₂ hsame (hperm.mem_iff.mp hq)
  exact ⟨c, Dict.get?_of_mem hkeys (hname ▸ hc), hqc⟩

namespace Json

/-- A tree is read as `a`, and its canonical form as something of the same kind. -/
def Recovers {α : Type} (read : Json → Option α) (Same : α → α → Prop) (tree : Json) (a : α) :
    Prop :=
  Recovered Same (read tree) (read tree.canonical) a

namespace Recovers

variable {α : Type} {read : Json → Option α} {Same : α → α → Prop}

theorem text (s : String) : Recovers text? Eq (string s) s := .pure rfl

theorem flag (b : Bool) : Recovers bool? Eq (bool b) b := .pure rfl

theorem maybeText (o : Option String) :
    Recovers (maybe? text?) Eq (o.elim null string) o := by
  cases o with
  | none => exact .pure rfl
  | some s => exact .pure rfl

theorem list {write : α → Json} {as : List α}
    (h : ∀ a ∈ as, Recovers read Same (write a) a) :
    Recovers (list? read) (List.Forall₂ Same) (array (as.map write)) as := by
  rw [Recovers, canonical_array, list?, list?, List.map_map, List.mapM_map, List.mapM_map]
  exact .mapM h

/-- The trees of the values of a dictionary. -/
theorem dict {write : α → Json} {d : Dict α} (hkeys : d.keys.Nodup)
    (h : ∀ p ∈ d, Recovers read Same (write p.2) p.2) :
    Recovers (dict? read) (Dict.Alike Same) (object (d.mapValues write)) d := by
  have hentries : Recovered (List.Forall₂ fun q p => q.1 = p.1 ∧ Same q.2 p.2)
      ((d.mapValues write).mapM fun field => (read field.2).map fun a => (field.1, a))
      (((d.mapValues write).mapValues canonical).mapM fun field =>
        (read field.2).map fun a => (field.1, a)) d := by
    rw [Dict.mapValues_mapValues, Dict.mapValues, Dict.mapValues, List.mapM_map, List.mapM_map]
    exact .mapM fun p hp => (h p hp).map fun b hb => ⟨rfl, hb⟩
  obtain ⟨hwritten, entries, harranged, hsame⟩ := hentries
  -- Sorting moves what is read, as it moves the trees.
  have htrees : (d.mapValues write).keys.Nodup := (Dict.keys_mapValues write d).symm ▸ hkeys
  obtain ⟨sorted, hsorted, hperm⟩ := exists_mapM_of_perm (arranged_perm htrees) harranged
  obtain ⟨hsortedKeys, halike⟩ := Dict.alike_of_perm hperm hsame hkeys
  rw [Recovers, canonical_object, dict?, dict?, hwritten, hsorted, Option.map_some, Option.map_some,
    Dict.ofPairs_of_nodup hkeys, Dict.ofPairs_of_nodup hsortedKeys]
  exact .pure halike

theorem vars {vs : Vars} (h : (Value.map vs).plain = true) :
    Recovers Vars.ofJson? (fun as bs => Value.sameVars as bs = true) (Vars.toJson vs) vs := by
  have hwritten := Value.decode_toRecord h
  have hsame := Value.same_decode_toJson h
  rw [← Value.canonical_toRecord h] at hsame
  change Recovered _ (Vars.ofJson? (Value.map vs).toRecord)
    (Vars.ofJson? (Value.map vs).toRecord.canonical) vs
  rw [Value.toRecord] at hwritten hsame ⊢
  rw [canonical_object] at hsame ⊢
  rw [Value.decode] at hwritten hsame
  exact ⟨congrArg some (Value.map.inj hwritten), _, rfl, hsame⟩

theorem items {o : Option (List Value)} (h : o.elim true Value.plainItems = true) :
    Recovers (maybe? (list? fun j => some (Value.decode j)))
      (fun as bs => Task.sameItems as bs = true)
      (o.elim null fun items => array (Value.itemsToRecord items)) o := by
  cases o with
  | none => exact .pure rfl
  | some items =>
    have hlist : Recovers (list? fun j => some (Value.decode j))
        (List.Forall₂ fun a b => a.same b = true) (array (items.map Value.toRecord)) items := by
      refine list fun v hv => ?_
      have hplain := Value.plainItems_iff.mp h v hv
      rw [Recovers, Value.canonical_toRecord hplain, Value.decode_toRecord hplain]
      exact .pure (Value.same_decode_toJson hplain)
    rw [← Value.itemsToRecord_eq, Recovers, canonical_array] at hlist
    rw [Option.elim_some, Recovers, canonical_array]
    exact hlist.map fun bs hbs => Value.sameItems_of_forall₂ hbs

end Recovers

/-- The other record has the canonical form of every field under the same name. -/
def Arranges (fields parts : Dict Json) : Prop :=
  ∀ {name : String} {tree : Json}, fields.get? name = some tree →
    parts.get? name = some tree.canonical

section

variable {α : Type} {read : Json → Option α} {Same : α → α → Prop} {fields parts : Dict Json}
  {name : String} {tree : Json} {a : α}

theorem Recovers.required (h : Recovers read Same tree a) (hparts : Arranges fields parts)
    (hget : fields.get? name = some tree) :
    Recovered Same (required? read fields name) (required? read parts name) a := by
  rw [required?, required?, hget, hparts hget]
  exact h

theorem Recovers.optional (h : Recovers read Same tree a) (fallback : α)
    (hparts : Arranges fields parts) (hget : fields.get? name = some tree) :
    Recovered Same (optional? read fallback fields name) (optional? read fallback parts name)
      a := by
  simp only [optional?, hget, hparts hget]
  exact h

/-- A record is recovered if it is put together from parts that are. -/
theorem Recovers.record {make : Dict Json → Option α} {names : List String}
    (hkeys : fields.keys.Nodup)
    (h : ∀ parts, Arranges fields parts → Recovered Same (make fields) (make parts) a) :
    Recovers (fun j => j.parts? names >>= make) Same (object fields) a := by
  rw [Recovers, canonical_object, parts?_of_nodup names hkeys,
    parts?_of_nodup names (nodup_arranged hkeys)]
  exact h _ (get?_arranged hkeys)

end

end Json

namespace Task

/-- The values of the task are plain. -/
def plain (t : Task) : Bool :=
  (Value.map t.vars).plain && (Value.map t.includeVars).plain &&
    t.items.elim true Value.plainItems

open Json in
theorem recovers {t : Task} (h : t.plain = true) :
    Recovers ofJson? (fun s t => s.same t = true) t.toJson t := by
  obtain ⟨⟨hvars, hinclude⟩, hitems⟩ : ((Value.map t.vars).plain = true ∧
      (Value.map t.includeVars).plain = true) ∧ t.items.elim true Value.plainItems = true := by
    simpa [plain] using h
  have hkeys : fields.Nodup := by decide
  refine Recovers.record hkeys fun parts hparts => ?_
  refine ((Recovers.text t.name).required hparts rfl).bind fun name hname => ?_
  refine ((Recovers.text t.command).required hparts rfl).bind fun command hcommand => ?_
  refine ((Recovers.text t.args).optional "" hparts rfl).bind fun args hargs => ?_
  refine ((Recovers.vars hvars).optional [] hparts rfl).bind fun vars hvars => ?_
  refine ((Recovers.vars hinclude).optional [] hparts rfl).bind fun includeVars hinclude => ?_
  refine ((Recovers.maybeText t.condition).optional none hparts rfl).bind fun condition hwhen => ?_
  refine ((Recovers.items hitems).optional none hparts rfl).bind fun items hitems => ?_
  refine ((Recovers.list fun s _ => Recovers.text s).optional [] hparts rfl).bind
    fun notify hnotify => ?_
  refine ((Recovers.maybeText t.register).optional none hparts rfl).bind
    fun register hregister => ?_
  refine ((Recovers.maybeText t.future).optional none hparts rfl).bind fun future hfuture => ?_
  refine ((Recovers.flag t.isAsync).optional false hparts rfl).bind fun isAsync hasync => ?_
  rw [List.forall₂_eq_eq_eq] at hnotify
  exact .pure (by simp [same, *])

end Task

namespace Module

/-- Modules that agree in every part. -/
structure Same (a b : Module) : Prop where
  name : a.name = b.name
  tasks : List.Forall₂ (fun s t => s.same t = true) a.tasks b.tasks

/-- The tasks of the module are plain. -/
def plain (m : Module) : Bool := m.tasks.all Task.plain

open Json in
theorem recovers {m : Module} (h : m.plain = true) : Recovers ofJson? Same m.toJson m := by
  have htasks := List.all_eq_true.mp h
  have hfields : ["name", "tasks"].Nodup := by decide
  refine Recovers.record hfields fun parts hparts => ?_
  refine ((Recovers.text m.name).required hparts rfl).bind fun name hname => ?_
  refine ((Recovers.list fun t ht => Task.recovers (htasks t ht)).optional [] hparts rfl).bind
    fun tasks htasks => ?_
  exact .pure ⟨hname, htasks⟩

end Module

namespace Play

/-- Plays that agree in every part, modules and variables in whatever order. -/
structure Same (a b : Play) : Prop where
  name : a.name = b.name
  tasks : List.Forall₂ (fun s t => s.same t = true) a.tasks b.tasks
  handlers : List.Forall₂ (fun s t => s.same t = true) a.handlers b.handlers
  modules : Dict.Alike Module.Same a.modules b.modules
  vars : Value.sameVars a.vars b.vars = true

/-- The tasks, handlers, modules and variables of the play are plain, and the keys of its modules
distinct. -/
def plain (p : Play) : Bool :=
  p.tasks.all Task.plain && p.handlers.all Task.plain && decide (Dict.keys p.modules).Nodup &&
    p.modules.all (fun m => m.2.plain) && (Value.map p.vars).plain

open Json in
theorem recovers {p : Play} (h : p.plain = true) : Recovers ofJson? Same p.toJson p := by
  simp only [plain, Bool.and_eq_true, List.all_eq_true, decide_eq_true_eq] at h
  obtain ⟨⟨⟨⟨htasks, hhandlers⟩, hkeys⟩, hmodules⟩, hvars⟩ := h
  have hfields : ["name", "tasks", "handlers", "modules", "vars"].Nodup := by decide
  refine Recovers.record hfields fun parts hparts => ?_
  refine ((Recovers.text p.name).required hparts rfl).bind fun name hname => ?_
  refine ((Recovers.list fun t ht => Task.recovers (htasks t ht)).optional [] hparts rfl).bind
    fun tasks htasks => ?_
  refine ((Recovers.list fun t ht => Task.recovers (hhandlers t ht)).optional [] hparts rfl).bind
    fun handlers hhandlers => ?_
  refine ((Recovers.dict hkeys fun m hm => Module.recovers (hmodules m hm)).optional [] hparts
    rfl).bind fun modules hmodules => ?_
  refine ((Recovers.vars hvars).optional [] hparts rfl).bind fun vars hvars => ?_
  exact .pure ⟨hname, htasks, hhandlers, hmodules, hvars⟩

end Play

namespace Playbook

/-- Playbooks that agree in every part. -/
structure Same (a b : Playbook) : Prop where
  plays : List.Forall₂ Play.Same a.plays b.plays
  baseDir : a.baseDir = b.baseDir

/-- The plays of the playbook are plain. -/
def plain (b : Playbook) : Bool := b.plays.all Play.plain

open Json in
/-- A playbook is read back from its tree, part by part from the tree as written and up to the order
of variables and modules from its canonical form. -/
theorem tree_recovers_playbook {b : Playbook} (h : b.plain = true) :
    ofJson? b.toJson = some b ∧ ∃ c, ofJson? b.toJson.canonical = some c ∧ c.Same b := by
  have hplays := List.all_eq_true.mp h
  have hfields : ["plays", "base_dir"].Nodup := by decide
  have hrecovers : Recovers ofJson? Same b.toJson b := by
    refine Recovers.record hfields fun parts hparts => ?_
    refine ((Recovers.list fun p hp => Play.recovers (hplays p hp)).optional [] hparts rfl).bind
      fun plays hplays => ?_
    refine ((Recovers.text b.baseDir).optional "" hparts rfl).bind fun baseDir hbaseDir => ?_
    exact .pure ⟨hplays, hbaseDir⟩
  exact ⟨hrecovers.written, hrecovers.arranged⟩

/-- The module is called by another name than its own, and of two loops one has no items. -/
theorem tree_recovers_playbook_modules :
    let looped : Task := { name := "a", command := "debug", items := some [], isAsync := true }
    let single : Task :=
      { name := "b", command := "greet", args := "x=1", condition := some "ready",
        vars := [("z", .int 1), ("a", .list [.float 0.5, .nil])], notify := ["h"],
        register := some "out", future := some "" }
    let play : Play :=
      { name := "p", tasks := [looped, single], handlers := [{ name := "h", command := "debug" }],
        modules := [("greet", { name := "hello", tasks := [single] }), ("echo", { name := "e" })] }
    let b : Playbook := { plays := [play], baseDir := "/srv/é" }
    b.plain = true ∧
      ofJson? b.toJson = some b ∧ ∃ c, ofJson? b.toJson.canonical = some c ∧ c.Same b := by
  intro looped single play b
  have hplain : b.plain = true := by decide +kernel
  exact ⟨hplain, tree_recovers_playbook hplain⟩

end Playbook

end PlaybookRunner
