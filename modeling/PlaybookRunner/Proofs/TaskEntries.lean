import PlaybookRunner.Error
import PlaybookRunner.Playbook.Entry
import PlaybookRunner.Playbook.Outline
import PlaybookRunner.Proofs.ArgumentTexts
import PlaybookRunner.Proofs.ValueTrees

/-!
# Mappings that are tasks

What may stand under the keys of a task is said here without reading it: a text is nothing
or a scalar, a list of texts also a list of scalars, a flag one of a few scalars. A mapping
without tags is a task exactly if all its keys are written so, it names one command, and the
body of the command is no list; the task then has what is written. A mapping with `include`
stands for a file exactly if its variables and the name of the file are written so, and
nothing else in it matters.
-/

namespace PlaybookRunner

namespace Dict

variable {α : Type}

/-- One dictionary over another: the keys of the lower one stay in front, and the values of
the upper one win. -/
structure Overlays (upper lower result : Dict α) : Prop where
  keys : result.keys = lower.keys ++ upper.keys.filter (· ∉ lower.keys)
  wins : ∀ key, result.get? key = (upper.get? key).or (lower.get? key)

theorem keys_extend {upper : Dict α} (h : upper.keys.Nodup) (lower : Dict α) :
    (lower.extend upper).keys = lower.keys ++ upper.keys.filter (· ∉ lower.keys) := by
  unfold extend
  induction upper generalizing lower with
  | nil => exact (List.append_nil _).symm
  | cons p rest ih =>
    obtain ⟨k, v⟩ := p
    obtain ⟨hk, hrest⟩ := List.nodup_cons.mp h
    change _ = lower.keys ++ (k :: keys rest).filter (· ∉ lower.keys)
    rw [List.foldl_cons, ih hrest]
    by_cases hmem : k ∈ lower.keys
    · rw [keys_put_of_mem hmem, List.filter_cons_of_neg (by simpa using hmem)]
    · have hput : (lower.put k v).keys = lower.keys ++ [k] := by
        rw [put_of_notMem hmem]
        exact List.map_append
      have hfilter : (keys rest).filter (· ∉ lower.keys ++ [k]) =
          (keys rest).filter (· ∉ lower.keys) :=
        List.filter_congr fun other hother => by
          have hne : other ≠ k := fun e => hk (e ▸ hother)
          simp [hne]
      rw [hput, hfilter, List.filter_cons_of_pos (by simpa using hmem), List.append_assoc]
      rfl

theorem overlays_extend {upper : Dict α} (h : upper.keys.Nodup) (lower : Dict α) :
    Overlays upper lower (lower.extend upper) where
  keys := keys_extend h lower
  wins := get?_extend h lower

end Dict

namespace Yaml.Data

variable {pairs : List (Data × Data)} {key : String} {value : Data}

/-- The data is a scalar. -/
def IsScalar (data : Data) : Prop := ∃ content, data = scalar content

theorem isScalar_of_isPlain {data : Data} (hplain : data.isPlain = true)
    (hlist : ∀ items, data ≠ .sequence items) (hmapping : ∀ inner, data ≠ .mapping inner) :
    data.IsScalar := by
  cases data with
  | scalar content => exact ⟨content, rfl⟩
  | sequence items => exact absurd rfl (hlist items)
  | mapping inner => exact absurd rfl (hmapping inner)
  | tagged tag content => exact absurd hplain Bool.false_ne_true

theorem same_text {a b : String} : (text a).same (text b) = true ↔ a = b := by
  simp [text, same, Literal.same]

theorem keysDistinct_cons {p : Data × Data} (h : keysDistinct (p :: pairs) = true) :
    (∀ q ∈ pairs, p.1.same q.1 = false) ∧ keysDistinct pairs = true := by
  rw [keysDistinct, Bool.and_eq_true, List.all_eq_true] at h
  exact ⟨fun q hq => by simpa using h.1 q hq, h.2⟩

theorem notMem_of_keysDistinct (h : keysDistinct ((text key, value) :: pairs) = true)
    (other : Data) : (text key, other) ∉ pairs := fun hmem =>
  Bool.noConfusion ((same_text.mpr rfl).symm.trans ((keysDistinct_cons h).1 _ hmem))

/-- A key that is a text holds what stands beside it. -/
theorem field?_eq_some_iff (h : keysDistinct pairs = true) :
    field? pairs key = some value ↔ (text key, value) ∈ pairs := by
  fun_induction field? pairs key with
  | case1 => simp
  | case2 k v rest hk =>
    -- The first pair of the key is the only one.
    obtain rfl : k = key := by simpa using hk
    have hrest : (text k, value) ∉ rest := notMem_of_keysDistinct h value
    simp only [List.mem_cons, hrest, or_false]
    simp [text, eq_comm]
  | case3 k v rest hk ih =>
    have hne : k ≠ key := by simpa using hk
    rw [ih (keysDistinct_cons h).2, List.mem_cons]
    simp [text, hne.symm]
  | case4 p rest hp ih =>
    have hne : (text key, value) ≠ p := fun e => hp key value e.symm
    rw [ih (keysDistinct_cons h).2, List.mem_cons]
    simp [hne]

theorem isPlain_of_field? (hdistinct : keysDistinct pairs = true)
    (h : ∀ p ∈ pairs, p.2.isPlain = true) : ∀ data ∈ field? pairs key, data.isPlain = true :=
  fun _ hdata => h _ ((field?_eq_some_iff hdistinct).mp hdata)

end Yaml.Data

namespace Playbook.Entry

open Yaml (Data)

variable {pairs : List (Data × Data)} {data? : Option Data} {key : String} {vars : Vars} {t : Task}

/-! ### What may stand under a key -/

/-- Variables: nothing, or a mapping. -/
inductive VarsUnder : Option Data → Vars → Prop
  | absent : VarsUnder none []
  | null : VarsUnder (some (.scalar .null)) []
  | mapping (inner : List (Data × Data)) : VarsUnder (some (.mapping inner)) (Data.vars inner)

/-- A text: nothing, or a scalar. -/
inductive TextUnder : Option Data → Option String → Prop
  | absent : TextUnder none none
  | null : TextUnder (some (.scalar .null)) none
  | scalar {content : Yaml.Literal} (h : content ≠ .null) :
      TextUnder (some (.scalar content)) (some (Data.scalar content).scalarText)

/-- Texts: nothing, a scalar, or a list of scalars. -/
inductive TextsUnder : Option Data → List String → Prop
  | absent : TextsUnder none []
  | null : TextsUnder (some (.scalar .null)) []
  | scalar {content : Yaml.Literal} (h : content ≠ .null) :
      TextsUnder (some (.scalar content)) [(Data.scalar content).scalarText]
  | list {items : List Data} (h : ∀ item ∈ items, item.IsScalar) :
      TextsUnder (some (.sequence items)) (items.map Data.scalarText)

/-- Items: nothing, a list, or one item alone. -/
inductive ItemsUnder : Option Data → Option (List Value) → Prop
  | absent : ItemsUnder none none
  | null : ItemsUnder (some (.scalar .null)) none
  | list (items : List Data) : ItemsUnder (some (.sequence items)) (some (items.map Data.toValue))
  | single {data : Data} (hnull : data ≠ .scalar .null) (hlist : ∀ items, data ≠ .sequence items) :
      ItemsUnder (some data) (some [data.toValue])

/-- A flag: nothing, a truth value, a whole number of the words with sign, or a word for one
of the two in whatever case. An infinite float and one that is no number count as nothing. -/
inductive FlagUnder : Option Data → Bool → Prop
  | absent : FlagUnder none false
  | null : FlagUnder (some (.scalar .null)) false
  | truth (b : Bool) : FlagUnder (some (.scalar (.bool b))) b
  | number {n : Int} (h : Decimal.fitsWord n = true) : FlagUnder (some (.scalar (.int n))) (n != 0)
  | nonFinite {x : Float} (h : x.isFinite = false) : FlagUnder (some (.scalar (.float x))) false
  | yes {word : String} (h : Text.lower word ∈ ["yes", "true", "on", "1"]) :
      FlagUnder (some (.scalar (.string word))) true
  | no {word : String} (h : Text.lower word ∈ ["no", "false", "off", "0", ""]) :
      FlagUnder (some (.scalar (.string word))) false

/-- The body of a command: a scalar holds arguments, and a mapping variables over those that
the task has of its own. -/
inductive BodyUnder (own : Vars) : Data → String → Vars → Prop
  | null : BodyUnder own (.scalar .null) "" own
  | scalar {content : Yaml.Literal} (h : content ≠ .null) :
      BodyUnder own (.scalar content) (Data.scalar content).scalarText own
  | mapping {inner : List (Data × Data)} {vars : Vars} (h : (Data.vars inner).Overlays own vars) :
      BodyUnder own (.mapping inner) "" vars

/-- Of the keys that are texts just one is not reserved, and it holds the body. -/
structure Commands (pairs : List (Data × Data)) (command : String) (body : Data) : Prop where
  held : (Data.text command, body) ∈ pairs
  free : command ∉ reservedKeys
  only : ∀ other data, (Data.text other, data) ∈ pairs → other ∉ reservedKeys → other = command

/-- If there are variables, they are nothing or a mapping. -/
def HasVars (pairs : List (Data × Data)) : Prop :=
  ∀ data ∈ Data.field? pairs "vars", data = .scalar .null ∨ ∃ inner, data = .mapping inner

/-- What stands under the keys of the mapping makes a task. -/
structure IsTask (pairs : List (Data × Data)) : Prop where
  command : ∃ command body, Commands pairs command body ∧ ∀ items, body ≠ .sequence items
  vars : HasVars pairs
  texts : ∀ key ∈ ["name", "when", "register", "future"], ∀ data ∈ Data.field? pairs key,
    data.IsScalar
  notify : ∀ data ∈ Data.field? pairs "notify",
    data.IsScalar ∨ ∃ items, data = .sequence items ∧ ∀ item ∈ items, item.IsScalar
  flag : ∃ isAsync, FlagUnder (Data.field? pairs "async") isAsync

/-- The name that is declared, unless it is empty, or else the command. -/
def nameOr (command : String) (name : Option String) : String :=
  (name.filter (· ≠ "")).getD command

theorem nameOr_some (command name : String) :
    nameOr command (some name) = if name == "" then command else name := by
  by_cases h : name = "" <;> simp [nameOr, h, Option.filter]

/-- The task has what the mapping says; `with_items` precedes `items`. -/
structure WrittenAs (pairs : List (Data × Data)) (t : Task) : Prop where
  body : ∃ body own, Commands pairs t.command body ∧ VarsUnder (Data.field? pairs "vars") own ∧
    BodyUnder own body t.args t.vars
  name : ∃ name, TextUnder (Data.field? pairs "name") name ∧ t.name = nameOr t.command name
  condition : TextUnder (Data.field? pairs "when") t.condition
  items : ItemsUnder ((Data.field? pairs "with_items").or (Data.field? pairs "items")) t.items
  notify : TextsUnder (Data.field? pairs "notify") t.notify
  register : TextUnder (Data.field? pairs "register") t.register
  future : TextUnder (Data.field? pairs "future") t.future
  isAsync : FlagUnder (Data.field? pairs "async") t.isAsync
  includeVars : t.includeVars = []

/-! ### Parts of a mapping -/

theorem varsOf_eq_ok_iff : varsOf data? = .ok vars ↔ VarsUnder data? vars := by
  constructor
  · intro h
    unfold varsOf at h
    split at h <;> cases h
    · exact .absent
    · exact .null
    · exact .mapping _
  · rintro (_ | _ | _) <;> rfl

theorem exists_varsUnder_iff :
    (∃ vars, VarsUnder (Data.field? pairs "vars") vars) ↔ HasVars pairs := by
  unfold HasVars
  cases Data.field? pairs "vars" with
  | none => exact ⟨nofun, fun _ => ⟨_, .absent⟩⟩
  | some data =>
    constructor
    · rintro ⟨vars, _ | _ | inner⟩ data hdata
      · exact .inl (Option.some.inj hdata).symm
      · exact .inr ⟨_, (Option.some.inj hdata).symm⟩
    · intro h
      obtain rfl | ⟨inner, rfl⟩ := h data rfl
      · exact ⟨_, .null⟩
      · exact ⟨_, .mapping inner⟩

theorem textOf_eq_ok_iff (hplain : ∀ data ∈ data?, data.isPlain = true) {text : Option String} :
    textOf key data? = .ok text ↔ TextUnder data? text := by
  constructor
  · intro h
    unfold textOf at h
    split at h <;> cases h
    · exact .absent
    · exact .null
    next other hnull hlist hmapping =>
      obtain ⟨content, rfl⟩ := Data.isScalar_of_isPlain (hplain _ rfl) hlist hmapping
      exact .scalar fun e => hnull (by rw [e])
  · rintro (_ | _ | h)
    · rfl
    · rfl
    · simp [textOf, h]

theorem exists_textUnder_iff : (∃ text, TextUnder data? text) ↔ ∀ data ∈ data?, data.IsScalar := by
  constructor
  · rintro ⟨text, h⟩ data hdata
    cases h <;> cases hdata
    · exact ⟨_, rfl⟩
    · exact ⟨_, rfl⟩
  · intro h
    cases data? with
    | none => exact ⟨_, .absent⟩
    | some data =>
      obtain ⟨content, rfl⟩ := h data rfl
      by_cases hnull : content = .null
      · exact ⟨none, hnull ▸ .null⟩
      · exact ⟨_, .scalar hnull⟩

theorem mapM_listedText_eq_ok_iff {items : List Data} {texts : List String}
    (hplain : Data.itemsPlain items = true) : items.mapM (listedText key) = .ok texts ↔
      (∀ item ∈ items, item.IsScalar) ∧ texts = items.map Data.scalarText := by
  induction items generalizing texts with
  | nil => simp [pure, Except.pure, eq_comm]
  | cons item rest ih =>
    obtain ⟨hitem, hrest⟩ := Bool.and_eq_true_iff.mp hplain
    have hhead : ∀ text, listedText key item = .ok text ↔
        item.IsScalar ∧ text = item.scalarText := fun text => by
      cases item with
      | scalar content => simp [listedText, Data.IsScalar, eq_comm]
      | sequence items => simp [listedText, Data.IsScalar]
      | mapping inner => simp [listedText, Data.IsScalar]
      | tagged tag content => exact absurd hitem Bool.false_ne_true
    rw [List.mapM_cons, List.forall_mem_cons, List.map_cons]
    simp only [bind_eq_ok_iff, hhead, ih hrest, pure, Except.pure, Except.ok.injEq]
    constructor
    · rintro ⟨_, ⟨hscalar, rfl⟩, _, ⟨hothers, rfl⟩, rfl⟩
      exact ⟨⟨hscalar, hothers⟩, rfl⟩
    · rintro ⟨⟨hscalar, hothers⟩, rfl⟩
      exact ⟨_, ⟨hscalar, rfl⟩, _, ⟨hothers, rfl⟩, rfl⟩

theorem textsOf_eq_ok_iff (hplain : ∀ data ∈ data?, data.isPlain = true) {texts : List String} :
    textsOf key data? = .ok texts ↔ TextsUnder data? texts := by
  constructor
  · intro h
    unfold textsOf at h
    split at h
    · cases h
      exact .absent
    · cases h
      exact .null
    next items =>
      obtain ⟨hscalar, rfl⟩ := (mapM_listedText_eq_ok_iff (hplain _ rfl)).mp h
      exact .list hscalar
    · cases h
    next other hnull hlist hmapping =>
      cases h
      obtain ⟨content, rfl⟩ := Data.isScalar_of_isPlain (hplain _ rfl) hlist hmapping
      exact .scalar fun e => hnull (by rw [e])
  · rintro (_ | _ | h | hscalar)
    · rfl
    · rfl
    · simp [textsOf, h]
    · exact (mapM_listedText_eq_ok_iff (hplain _ rfl)).mpr ⟨hscalar, rfl⟩

theorem exists_textsUnder_iff : (∃ texts, TextsUnder data? texts) ↔ ∀ data ∈ data?,
    data.IsScalar ∨ ∃ items, data = .sequence items ∧ ∀ item ∈ items, item.IsScalar := by
  constructor
  · rintro ⟨texts, h⟩ data hdata
    cases h <;> cases hdata
    · exact .inl ⟨_, rfl⟩
    · exact .inl ⟨_, rfl⟩
    next items hitems => exact .inr ⟨items, rfl, hitems⟩
  · intro h
    cases data? with
    | none => exact ⟨_, .absent⟩
    | some data =>
      obtain ⟨content, rfl⟩ | ⟨items, rfl, hitems⟩ := h data rfl
      · by_cases hnull : content = .null
        · exact ⟨[], hnull ▸ .null⟩
        · exact ⟨_, .scalar hnull⟩
      · exact ⟨_, .list hitems⟩

/-- Whatever stands under their key, there are the items that it says. -/
theorem itemsUnder_itemsOf (hplain : ∀ data ∈ data?, data.isPlain = true) :
    ItemsUnder data? (itemsOf data?) := by
  cases data? with
  | none => exact .absent
  | some data =>
    cases data with
    | scalar content =>
      cases content with
      | null => exact .null
      | int n =>
        have hitems : itemsOf (some (.scalar (.int n))) =
            some [(Data.scalar (.int n)).toValue] := by
          cases hfits : Decimal.fitsWord n <;>
            simp [itemsOf, Data.toValue, Data.literalValue, hfits]
        rw [hitems]
        exact .single nofun nofun
      | bool b => exact .single nofun nofun
      | float x => exact .single nofun nofun
      | string s => exact .single nofun nofun
    | sequence items =>
      have hvalues : Data.itemValues items = items.map Data.toValue :=
        Value.eq_map rfl (fun _ _ => rfl) items
      have hitems : itemsOf (some (.sequence items)) = some (Data.itemValues items) := rfl
      rw [hitems, hvalues]
      exact .list items
    | mapping inner => exact .single nofun nofun
    | tagged tag content => exact absurd (hplain _ rfl) Bool.false_ne_true

theorem ofWord?_eq_some_iff {word : String} {b : Bool} : Flag.ofWord? word = some b ↔
    (b = true ∧ word ∈ ["yes", "true", "on", "1"]) ∨
      (b = false ∧ word ∈ ["no", "false", "off", "0", ""]) := by
  have hapart : ∀ w ∈ ["yes", "true", "on", "1"], w ∉ ["no", "false", "off", "0", ""] := by decide
  unfold Flag.ofWord?
  split
  next hyes =>
    have hmem : word ∈ ["yes", "true", "on", "1"] := List.contains_iff_mem.mp hyes
    simp [hmem, hapart word hmem, eq_comm]
  next hyes =>
    have hmem : word ∉ ["yes", "true", "on", "1"] := fun h => hyes (List.contains_iff_mem.mpr h)
    split
    next hno =>
      have hmem' : word ∈ ["no", "false", "off", "0", ""] := List.contains_iff_mem.mp hno
      simp [hmem, hmem', eq_comm]
    next hno =>
      have hmem' : word ∉ ["no", "false", "off", "0", ""] := fun h =>
        hno (List.contains_iff_mem.mpr h)
      simp [hmem, hmem']

/-- The flags of scalars. -/
theorem ofJson_toJson_eq_ok_iff {content : Yaml.Literal} {b : Bool} :
    Flag.ofJson content.toJson = .ok b ↔ FlagUnder (some (.scalar content)) b := by
  cases content with
  | null =>
    constructor
    · rintro ⟨⟩
      exact .null
    · rintro ⟨⟩
      rfl
  | bool c =>
    constructor
    · rintro ⟨⟩
      exact .truth _
    · rintro ⟨⟩
      rfl
  | int n =>
    rw [Yaml.Literal.toJson, Flag.ofJson]
    split
    next hfits =>
      constructor
      · rintro ⟨⟩
        exact .number hfits
      · rintro ⟨⟩
        rfl
    next hfits =>
      refine ⟨nofun, ?_⟩
      rintro ⟨⟩
      contradiction
  | float x =>
    rw [Yaml.Literal.toJson, Value.floatTree]
    split
    next hfinite =>
      refine ⟨nofun, ?_⟩
      rintro ⟨⟩
      next h => exact absurd hfinite (by rw [h]; exact Bool.false_ne_true)
    next hfinite =>
      constructor
      · rintro ⟨⟩
        exact .nonFinite (Bool.eq_false_iff.mpr hfinite)
      · rintro ⟨⟩
        rfl
  | string word =>
    have hword : Flag.ofJson (.string word) = .ok b ↔ Flag.ofWord? (Text.lower word) = some b := by
      rw [Flag.ofJson]
      cases Flag.ofWord? (Text.lower word) <;> simp
    rw [Yaml.Literal.toJson, hword, ofWord?_eq_some_iff]
    constructor
    · rintro (⟨rfl, h⟩ | ⟨rfl, h⟩)
      · exact .yes h
      · exact .no h
    · rintro (_ | _ | _ | _ | _ | h | h)
      · exact .inl ⟨rfl, h⟩
      · exact .inr ⟨rfl, h⟩

theorem flagOf_eq_ok_iff (hplain : ∀ data ∈ data?, data.isPlain = true) {isAsync : Bool} :
    flagOf data? = .ok isAsync ↔ FlagUnder data? isAsync := by
  cases data? with
  | none =>
    constructor
    · rintro ⟨⟩
      exact .absent
    · rintro ⟨⟩
      rfl
  | some data =>
    cases data with
    | scalar content => exact ofJson_toJson_eq_ok_iff
    | sequence items =>
      have hflag : flagOf (some (.sequence items)) =
          ((Data.itemTrees items).map Json.array).bind Flag.ofJson := by
        simp only [flagOf, Flag.ofData, Data.tree]
      rw [hflag]
      cases Data.itemTrees items <;> exact ⟨nofun, nofun⟩
    | mapping inner =>
      have hflag : flagOf (some (.mapping inner)) = ((Data.pairTrees "a string key" inner).map
          fun fields => Json.object (Dict.sorted fields)).bind Flag.ofJson := by
        simp only [flagOf, Flag.ofData, Data.tree]
      rw [hflag]
      cases Data.pairTrees "a string key" inner <;> exact ⟨nofun, nofun⟩
    | tagged tag content => exact absurd (hplain _ rfl) Bool.false_ne_true

/-! ### The command and its body -/

theorem mem_commands {body : Data} :
    (key, body) ∈ commands pairs ↔ (Data.text key, body) ∈ pairs ∧ key ∉ reservedKeys := by
  fun_induction commands pairs with
  | case1 => simp
  | case2 other data rest hreserved ih =>
    have hmem : other ∈ reservedKeys := List.contains_iff_mem.mp hreserved
    rw [ih, List.mem_cons]
    constructor
    · exact fun h => ⟨.inr h.1, h.2⟩
    · rintro ⟨heq | h, hfree⟩
      · cases heq
        exact absurd hmem hfree
      · exact ⟨h, hfree⟩
  | case3 other data rest hreserved ih =>
    have hfree : other ∉ reservedKeys := fun h => hreserved (List.contains_iff_mem.mpr h)
    rw [List.mem_cons, ih, List.mem_cons]
    constructor
    · rintro (heq | h)
      · cases heq
        exact ⟨.inl rfl, hfree⟩
      · exact ⟨.inr h.1, h.2⟩
    · rintro ⟨heq | h, hkey⟩
      · cases heq
        exact .inl rfl
      · exact .inr ⟨h, hkey⟩
  | case4 p rest hp ih =>
    have hne : (Data.text key, body) ≠ p := fun e => hp key body e.symm
    rw [ih, List.mem_cons]
    simp [hne]

theorem nodup_commands (h : Data.keysDistinct pairs = true) :
    (Dict.keys (commands pairs)).Nodup := by
  fun_induction commands pairs with
  | case1 => exact List.nodup_nil
  | case2 other data rest hreserved ih => exact ih (Data.keysDistinct_cons h).2
  | case3 other data rest hreserved ih =>
    refine List.nodup_cons.mpr ⟨fun hmem => ?_, ih (Data.keysDistinct_cons h).2⟩
    obtain ⟨⟨k, body⟩, hbody, rfl⟩ := List.mem_map.mp hmem
    exact Data.notMem_of_keysDistinct h body (mem_commands.mp hbody).1
  | case4 p rest hp ih => exact ih (Data.keysDistinct_cons h).2

theorem command_eq_ok_iff (h : Data.keysDistinct pairs = true) {name : String} {body : Data} :
    command pairs = .ok (name, body) ↔ Commands pairs name body := by
  have hlist : command pairs = .ok (name, body) ↔ commands pairs = [(name, body)] := by
    unfold command
    split <;> simp_all
  rw [hlist]
  constructor
  · intro hone
    have hmem : (name, body) ∈ commands pairs := hone ▸ List.mem_singleton_self _
    obtain ⟨held, free⟩ := mem_commands.mp hmem
    refine ⟨held, free, fun other data hdata hother => ?_⟩
    have hsame := mem_commands.mpr ⟨hdata, hother⟩
    rw [hone, List.mem_singleton] at hsame
    exact congrArg Prod.fst hsame
  · intro hcommands
    have hmem := mem_commands.mpr ⟨hcommands.held, hcommands.free⟩
    have hall : ∀ p ∈ commands pairs, p.1 = name := fun p hp =>
      have hp := mem_commands.mp hp
      hcommands.only p.1 p.2 hp.1 hp.2
    have hnodup := nodup_commands h
    cases hfound : commands pairs with
    | nil =>
      rw [hfound] at hmem
      cases hmem
    | cons p rest =>
      rw [hfound] at hmem hall hnodup
      cases rest with
      | nil => rw [List.mem_singleton.mp hmem]
      | cons q rest =>
        have hp := hall p List.mem_cons_self
        have hq := hall q (List.mem_cons_of_mem _ List.mem_cons_self)
        have hrepeated : p.1 ∈ Dict.keys (q :: rest) :=
          List.mem_map.mpr ⟨q, List.mem_cons_self, hq.trans hp.symm⟩
        exact absurd hrepeated (List.nodup_cons.mp hnodup).1

/-- The body adds arguments or variables to a task without arguments. -/
theorem bodyUnder_of_addBody {body : Data} {t' : Task} (hargs : t.args = "")
    (hplain : body.isPlain = true) (h : addBody t body = .ok t') :
    BodyUnder t.vars body t'.args t'.vars ∧ t' = { t with args := t'.args, vars := t'.vars } := by
  unfold addBody at h
  split at h
  · cases h
    exact ⟨hargs ▸ .null, rfl⟩
  next inner =>
    cases h
    exact ⟨hargs ▸ .mapping (Dict.overlays_extend (Dict.nodup_ofPairs _) t.vars), rfl⟩
  · cases h
  next other hnull hmapping hlist =>
    cases h
    obtain ⟨content, rfl⟩ := Data.isScalar_of_isPlain hplain hlist hmapping
    exact ⟨.scalar fun e => hnull (by rw [e]), rfl⟩

theorem exists_addBody_iff {body : Data} :
    (∃ t', addBody t body = .ok t') ↔ ∀ items, body ≠ .sequence items := by
  unfold addBody
  split
  · simp
  · simp
  · simp
  next hlist => simpa using hlist

/-! ### Mappings -/

section

variable (hplain : ∀ p ∈ pairs, p.2.isPlain = true) (hdistinct : Data.keysDistinct pairs = true)

include hplain hdistinct

/-- A mapping is read part by part. -/
theorem taskOf_eq_ok_iff : taskOf vars pairs = .ok t ↔
    ∃ command body name t' condition notify register future isAsync,
      Commands pairs command body ∧ TextUnder (Data.field? pairs "name") name ∧
      addBody { name := nameOr command name, command, vars } body = .ok t' ∧
      TextUnder (Data.field? pairs "when") condition ∧
      TextsUnder (Data.field? pairs "notify") notify ∧
      TextUnder (Data.field? pairs "register") register ∧
      TextUnder (Data.field? pairs "future") future ∧
      FlagUnder (Data.field? pairs "async") isAsync ∧
      t = { t' with
        condition, notify, register, future, isAsync,
        items := itemsOf (Data.field? pairs "with_items" <|> Data.field? pairs "items") } := by
  have hunder : ∀ key, ∀ data ∈ Data.field? pairs key, data.isPlain = true := fun key =>
    Data.isPlain_of_field? hdistinct hplain
  unfold taskOf
  simp only [bind_eq_ok_iff, Prod.exists, command_eq_ok_iff hdistinct,
    textOf_eq_ok_iff (hunder _), textsOf_eq_ok_iff (hunder _), flagOf_eq_ok_iff (hunder _), pure,
    Except.pure, Except.ok.injEq]
  constructor
  · rintro ⟨command, body, hcommand, name, htext, t', hbody, condition, hcondition, notify, hnotify,
      register, hregister, future, hfuture, isAsync, hflag, rfl⟩
    refine ⟨command, body, name, t', condition, notify, register, future, isAsync, hcommand, htext,
      ?_, hcondition, hnotify, hregister, hfuture, hflag, rfl⟩
    cases name with
    | none => exact hbody
    | some name => rwa [nameOr_some]
  · rintro ⟨command, body, name, t', condition, notify, register, future, isAsync, hcommand, htext,
      hbody, hcondition, hnotify, hregister, hfuture, hflag, rfl⟩
    refine ⟨command, body, hcommand, name, htext, t', ?_, condition, hcondition, notify, hnotify,
      register, hregister, future, hfuture, isAsync, hflag, rfl⟩
    cases name with
    | none => exact hbody
    | some name => rwa [nameOr_some] at hbody

theorem writtenAs_of_taskOf (hvars : VarsUnder (Data.field? pairs "vars") vars)
    (h : taskOf vars pairs = .ok t) : WrittenAs pairs t := by
  obtain ⟨command, body, name, t', condition, notify, register, future, isAsync, hcommand, hname,
    hbody, hcondition, hnotify, hregister, hfuture, hflag, rfl⟩ :=
    (taskOf_eq_ok_iff hplain hdistinct).mp h
  have hitems : ItemsUnder ((Data.field? pairs "with_items").or (Data.field? pairs "items"))
      (itemsOf (Data.field? pairs "with_items" <|> Data.field? pairs "items")) := by
    have hor : (Data.field? pairs "with_items" <|> Data.field? pairs "items") =
        (Data.field? pairs "with_items").or (Data.field? pairs "items") := Option.or_eq_orElse.symm
    rw [hor]
    refine itemsUnder_itemsOf fun data hdata => ?_
    rcases Option.or_eq_some_iff.mp hdata with hdata | ⟨-, hdata⟩
    · exact Data.isPlain_of_field? hdistinct hplain data hdata
    · exact Data.isPlain_of_field? hdistinct hplain data hdata
  obtain ⟨hunder, hsame⟩ := bodyUnder_of_addBody rfl (hplain _ hcommand.held) hbody
  rw [hsame]
  exact {
    body := ⟨body, vars, hcommand, hvars, hunder⟩
    name := ⟨name, hname, rfl⟩
    condition := hcondition
    items := hitems
    notify := hnotify
    register := hregister
    future := hfuture
    isAsync := hflag
    includeVars := rfl }

theorem exists_taskOf_iff (hvars : VarsUnder (Data.field? pairs "vars") vars) :
    (∃ t, taskOf vars pairs = .ok t) ↔ IsTask pairs := by
  constructor
  · rintro ⟨t, h⟩
    obtain ⟨command, body, name, t', condition, notify, register, future, isAsync, hcommand, hname,
      hbody, hcondition, hnotify, hregister, hfuture, hflag, -⟩ :=
      (taskOf_eq_ok_iff hplain hdistinct).mp h
    refine ⟨⟨command, body, hcommand, exists_addBody_iff.mp ⟨t', hbody⟩⟩,
      exists_varsUnder_iff.mp ⟨vars, hvars⟩, ?_, exists_textsUnder_iff.mp ⟨notify, hnotify⟩,
      ⟨isAsync, hflag⟩⟩
    simp only [List.forall_mem_cons, ← exists_textUnder_iff]
    exact ⟨⟨_, hname⟩, ⟨_, hcondition⟩, ⟨_, hregister⟩, ⟨_, hfuture⟩, nofun⟩
  · rintro ⟨⟨command, body, hcommand, hbody⟩, -, htexts, hnotify, isAsync, hflag⟩
    simp only [List.forall_mem_cons, ← exists_textUnder_iff] at htexts
    obtain ⟨⟨name, hname⟩, ⟨condition, hcondition⟩, ⟨register, hregister⟩, ⟨future, hfuture⟩, -⟩ :=
      htexts
    obtain ⟨notify, hnotify⟩ := exists_textsUnder_iff.mpr hnotify
    obtain ⟨t', hbody⟩ := exists_addBody_iff.mpr hbody
    exact ⟨_, (taskOf_eq_ok_iff hplain hdistinct).mpr ⟨command, body, name, t', condition, notify,
      register, future, isAsync, hcommand, hname, hbody, hcondition, hnotify, hregister, hfuture,
      hflag, rfl⟩⟩

end

theorem ofData_of_task (h : Data.field? pairs "include" = none) {entry : Entry} :
    ofData (.mapping pairs) = .ok entry ↔ ∃ vars t, VarsUnder (Data.field? pairs "vars") vars ∧
      taskOf vars pairs = .ok t ∧ entry = .task t := by
  rw [ofData, ofPairs, h]
  simp only [bind_eq_ok_iff, varsOf_eq_ok_iff, pure, Except.pure, Except.ok.injEq]
  constructor
  · rintro ⟨vars, hvars, t, ht, rfl⟩
    exact ⟨vars, t, hvars, ht, rfl⟩
  · rintro ⟨vars, t, hvars, ht, rfl⟩
    exact ⟨vars, hvars, t, ht, rfl⟩

theorem textUnder_some_iff {data : Data} {text : String} : TextUnder (some data) (some text) ↔
    data.IsScalar ∧ data ≠ .scalar .null ∧ text = data.scalarText := by
  constructor
  · rintro (_ | _ | h)
    exact ⟨⟨_, rfl⟩, fun e => h (Data.scalar.inj e), rfl⟩
  · rintro ⟨⟨content, rfl⟩, hnull, rfl⟩
    exact .scalar fun e => hnull (by rw [e])

theorem ofData_of_include {file : Data} (h : Data.field? pairs "include" = some file)
    (hplain : file.isPlain = true) {entry : Entry} :
    ofData (.mapping pairs) = .ok entry ↔ ∃ vars, VarsUnder (Data.field? pairs "vars") vars ∧
      file.IsScalar ∧ file ≠ .scalar .null ∧ entry = .inclusion file.scalarText vars := by
  have hfile : ∀ data ∈ some file, data.isPlain = true := fun data hdata =>
    Option.some.inj hdata ▸ hplain
  rw [ofData, ofPairs, h]
  simp only [bind_eq_ok_iff, varsOf_eq_ok_iff, textOf_eq_ok_iff hfile]
  constructor
  · rintro ⟨vars, hvars, text, htext, hentry⟩
    cases text with
    | none => cases hentry
    | some text =>
      cases hentry
      obtain ⟨hscalar, hnull, rfl⟩ := textUnder_some_iff.mp htext
      exact ⟨vars, hvars, hscalar, hnull, rfl⟩
  · rintro ⟨vars, hvars, hscalar, hnull, rfl⟩
    exact ⟨vars, hvars, _, textUnder_some_iff.mpr ⟨hscalar, hnull, rfl⟩, rfl⟩

/-- A mapping without `include` is a task exactly if what stands under its keys makes one, and
then the task has what is written. A mapping with `include` stands for a file exactly if its
variables are none or a mapping and a scalar names the file. -/
theorem entry_of_mapping (hplain : ∀ p ∈ pairs, p.2.isPlain = true)
    (hdistinct : Data.keysDistinct pairs = true) :
    (Data.field? pairs "include" = none →
      ((∃ t, ofData (.mapping pairs) = .ok (.task t)) ↔ IsTask pairs) ∧
      ∀ entry, ofData (.mapping pairs) = .ok entry → ∃ t, entry = .task t ∧ WrittenAs pairs t) ∧
    ∀ file, Data.field? pairs "include" = some file →
      ((∃ name vars, ofData (.mapping pairs) = .ok (.inclusion name vars)) ↔
        HasVars pairs ∧ file.IsScalar ∧ file ≠ .scalar .null) ∧
      ∀ entry, ofData (.mapping pairs) = .ok entry → ∃ vars,
        entry = .inclusion file.scalarText vars ∧ VarsUnder (Data.field? pairs "vars") vars := by
  have hincluded {file : Data} (hfile : Data.field? pairs "include" = some file) :
      file.isPlain = true := Data.isPlain_of_field? hdistinct hplain file hfile
  refine ⟨fun hnone => ⟨⟨?_, fun h => ?_⟩, fun entry hentry => ?_⟩,
    fun file hfile => ⟨⟨?_, ?_⟩, fun entry hentry => ?_⟩⟩
  · rintro ⟨t, ht⟩
    obtain ⟨vars, t', hvars, htask, -⟩ := (ofData_of_task hnone).mp ht
    exact (exists_taskOf_iff hplain hdistinct hvars).mp ⟨t', htask⟩
  · obtain ⟨vars, hvars⟩ := exists_varsUnder_iff.mpr h.vars
    obtain ⟨t, ht⟩ := (exists_taskOf_iff hplain hdistinct hvars).mpr h
    exact ⟨t, (ofData_of_task hnone).mpr ⟨vars, t, hvars, ht, rfl⟩⟩
  · obtain ⟨vars, t, hvars, htask, rfl⟩ := (ofData_of_task hnone).mp hentry
    exact ⟨t, rfl, writtenAs_of_taskOf hplain hdistinct hvars htask⟩
  · rintro ⟨name, vars, h⟩
    obtain ⟨vars', hvars, hscalar, hnull, -⟩ := (ofData_of_include hfile (hincluded hfile)).mp h
    exact ⟨exists_varsUnder_iff.mp ⟨vars', hvars⟩, hscalar, hnull⟩
  · rintro ⟨hvars, hscalar, hnull⟩
    obtain ⟨vars, hvars⟩ := exists_varsUnder_iff.mpr hvars
    exact ⟨_, vars, (ofData_of_include hfile (hincluded hfile)).mpr
      ⟨vars, hvars, hscalar, hnull, rfl⟩⟩
  · obtain ⟨vars, hvars, -, -, rfl⟩ := (ofData_of_include hfile (hincluded hfile)).mp hentry
    exact ⟨vars, rfl, hvars⟩

/-- A task with variables under its command and of its own, a list of texts with a gap, a flag
in capitals, and a key that is no text. -/
def greet : List (Data × Data) :=
  [(.text "name", .text ""), (.text "debug", .mapping [(.text "msg", .text "hello")]),
    (.text "vars", .mapping [(.text "msg", .text "bye"), (.text "x", .scalar .null)]),
    (.text "when", .scalar (.bool true)), (.text "items", .scalar (.int 7)),
    (.text "notify", .sequence [.text "log", .scalar .null]), (.scalar (.int 1), .sequence []),
    (.text "async", .text "YES")]

/-- An inclusion with a command beside it. -/
def more : List (Data × Data) :=
  [(.text "include", .text "more.yml"), (.text "vars", .scalar .null),
    (.text "shell", .sequence [])]

/-- The task that `greet` is. -/
def greeting : Task where
  name := "debug"
  command := "debug"
  vars := [("msg", .string "hello"), ("x", .nil)]
  condition := some "true"
  items := some [.int 7]
  notify := ["log", ""]
  isAsync := true

theorem entry_of_mapping_greet :
    (IsTask greet ∧ ofData (.mapping greet) = .ok (.task greeting) ∧ WrittenAs greet greeting) ∧
      HasVars more ∧ ofData (.mapping more) = .ok (.inclusion "more.yml" []) := by
  have hgreet := (entry_of_mapping (by decide : ∀ p ∈ greet, p.2.isPlain = true) (by decide)).1 rfl
  have hgreeting : ofData (.mapping greet) = .ok (.task greeting) := rfl
  obtain ⟨t, heq, hwritten⟩ := hgreet.2 _ hgreeting
  cases heq
  have hmore := (entry_of_mapping (by decide : ∀ p ∈ more, p.2.isPlain = true) (by decide)).2 _ rfl
  exact ⟨⟨hgreet.1.mp ⟨greeting, hgreeting⟩, hgreeting, hwritten⟩,
    (hmore.1.mp ⟨"more.yml", [], rfl⟩).1, rfl⟩

end Playbook.Entry

end PlaybookRunner
