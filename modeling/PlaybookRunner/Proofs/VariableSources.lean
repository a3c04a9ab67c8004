import Mathlib.Data.String.Basic
import PlaybookRunner.Proofs.Inclusion
import PlaybookRunner.Proofs.PlaybookTrees
import PlaybookRunner.Proofs.TaskEntries

/-!
# Where the variables of a play come from

The variables of a play stand in its mapping or in files. The mapping is taken from the data of
the document, a file is read as a tree and has its keys in ascending order. Both come to the same
values, as long as the keys of every mapping are distinct texts, no tag occurs and every number
is finite: the tree of such data is read as the value of the data, and the order of its keys
only moves bindings.

Files are laid over the mapping in their order, so the last one that binds a key decides.
-/

namespace PlaybookRunner

namespace Dict

variable {α : Type} {d : Dict α} {key : String}

theorem mem_keys_putSorted {other : String} {value : α} :
    other ∈ (d.putSorted key value).keys ↔ other = key ∨ other ∈ d.keys := by
  induction d with
  | nil => simp [putSorted, keys]
  | cons p rest ih =>
    obtain ⟨k, v⟩ := p
    rw [putSorted]
    by_cases hk : key = k
    · simp [hk, keys]
    · rw [if_neg hk]
      by_cases hlt : key < k
      · simp [hlt, keys]
      · have hcons : (keys ((k, v) :: putSorted rest key value)) =
            k :: (putSorted rest key value).keys := rfl
        rw [if_neg hlt, hcons, List.mem_cons, ih]
        simp [keys, or_left_comm]

theorem pairwise_putSorted (h : d.keys.Pairwise (· < ·)) (key : String) (value : α) :
    (d.putSorted key value).keys.Pairwise (· < ·) := by
  induction d with
  | nil => exact List.pairwise_singleton _ _
  | cons p rest ih =>
    obtain ⟨k, v⟩ := p
    obtain ⟨hk, hrest⟩ := List.pairwise_cons.mp h
    rw [putSorted]
    by_cases heq : key = k
    · rw [if_pos heq]
      exact h
    · rw [if_neg heq]
      by_cases hlt : key < k
      · rw [if_pos hlt]
        refine List.pairwise_cons.mpr ⟨fun other hother => ?_, h⟩
        rcases List.mem_cons.mp hother with rfl | hother
        · exact hlt
        · exact lt_trans hlt (hk other hother)
      · rw [if_neg hlt]
        refine List.pairwise_cons.mpr ⟨fun other hother => ?_, ih hrest⟩
        rcases mem_keys_putSorted.mp hother with rfl | hother
        · exact lt_of_le_of_ne (not_lt.mp hlt) (Ne.symm heq)
        · exact hk other hother

/-- Whatever pairs are sorted, each key comes once. -/
theorem nodup_sorted (pairs : List (String × α)) : (sorted pairs).keys.Nodup := by
  have hpairwise : ∀ d : Dict α, d.keys.Pairwise (· < ·) →
      (pairs.foldl (fun d p => d.putSorted p.1 p.2) d).keys.Pairwise (· < ·) := by
    induction pairs with
    | nil => exact fun _ h => h
    | cons p rest ih => exact fun d h => ih _ (pairwise_putSorted h p.1 p.2)
  exact (hpairwise [] List.Pairwise.nil).imp ne_of_lt

end Dict

namespace Value

open Json

/-- The order in which a tree has its keys is immaterial to the value it is read as. -/
theorem same_ofJson_canonical {j : Json} (h : j.sound = true) :
    (ofJson j.canonical).same (ofJson j) = true := by
  induction j using Json.inductionOn with
  | null | bool | int | float | string => exact same_ofJson_self h
  | array items ih =>
    have hitems := sound_array_iff.mp h
    rw [canonical_array, ofJson, ofJson, same, ofJsonItems_eq, ofJsonItems_eq, List.map_map]
    exact sameItems_map fun j hj => ih j hj (hitems j hj)
  | object fields ih =>
    obtain ⟨hkeys, hfields⟩ := sound_object_iff.mp h
    rw [canonical_object, ofJson, ofJson, ofJsonFields_eq, ofJsonFields_eq]
    refine sameVars_mapValues_of_perm (f := fun j => ofJson j.canonical) ?_ hkeys
      fun p hp => ih p hp (hfields p hp)
    rw [← Dict.mapValues_mapValues canonical ofJson]
    exact (arranged_perm hkeys).map _

end Value

namespace Yaml

theorem Literal.int?_ne_string (n : Int) (s : String) : int? n ≠ some (.string s) := by
  unfold int?
  split <;> simp

/-- A scalar that is a text is the text that is written. -/
theorem Literal.eq_of_ofScalar? {tag : Option String} {isPlain : Bool} {text s : String}
    (h : ofScalar? tag isPlain text = some (.string s)) : s = text := by
  have hplain (h : ofPlain? text = some (.string s)) : s = text := by
    unfold ofPlain? at h
    grind [int?_ne_string]
  unfold ofScalar? at h
  grind [int?_ne_string, Option.map_eq_some_iff, Option.bind_eq_some_iff]

namespace Data

/-- Induction over the parts of data, the keys of mappings apart. -/
@[elab_as_elim]
theorem inductionOn {P : Data → Prop} (scalar : ∀ c, P (.scalar c))
    (sequence : ∀ items, (∀ d ∈ items, P d) → P (.sequence items))
    (mapping : ∀ pairs, (∀ p ∈ pairs, P p.2) → P (.mapping pairs))
    (tagged : ∀ tag content, P content → P (.tagged tag content)) : (d : Data) → P d
  | .scalar c => scalar c
  | .sequence items => sequence items fun d _ => inductionOn scalar sequence mapping tagged d
  | .mapping pairs => mapping pairs fun p hp =>
    have hlt : sizeOf p.2 < sizeOf pairs := by
      have hlt := List.sizeOf_lt_of_mem hp
      rw [Prod.mk.sizeOf_spec] at hlt
      omega
    inductionOn scalar sequence mapping tagged p.2
  | .tagged tag content => tagged tag content (inductionOn scalar sequence mapping tagged content)
termination_by d => sizeOf d

/-- A mapping from texts. -/
def ofFields (fields : Dict Data) : List (Data × Data) := fields.map fun p => (text p.1, p.2)

mutual

/-- The keys of every mapping in the data are distinct texts, no tag occurs, and every number is
finite. -/
def regular : Data → Bool
  | scalar (.float x) => x.isFinite
  | scalar _ => true
  | sequence items => regularItems items
  | mapping pairs => keysDistinct pairs && regularPairs pairs
  | tagged .. => false

/-- All items are regular. -/
def regularItems : List Data → Bool
  | [] => true
  | item :: rest => regular item && regularItems rest

/-- All keys are texts, and what they hold is regular. -/
def regularPairs : List (Data × Data) → Bool
  | [] => true
  | (scalar (.string _), value) :: rest => regular value && regularPairs rest
  | _ :: _ => false

end

theorem regular_sequence_iff {items : List Data} :
    (sequence items).regular = true ↔ ∀ d ∈ items, d.regular = true := by
  rw [regular]
  induction items with
  | nil => simp [regularItems]
  | cons d rest ih => simp [regularItems, ih]

theorem keysDistinct_ofFields {fields : Dict Data} :
    keysDistinct (ofFields fields) = true ↔ fields.keys.Nodup := by
  induction fields with
  | nil => simp [ofFields, keysDistinct, Dict.keys]
  | cons p rest ih =>
    obtain ⟨key, value⟩ := p
    have hnew : ((ofFields rest).all fun q => !(text key).same q.1) = true ↔
        key ∉ Dict.keys rest := by
      simp only [ofFields, Dict.keys, List.all_map, Function.comp_def, List.all_eq_true,
        Bool.not_eq_true', ← Bool.not_eq_true, same_text, List.mem_map, not_exists, not_and]
      exact forall₂_congr fun q _ => ne_comm
    change (((ofFields rest).all fun q => !(text key).same q.1) && keysDistinct (ofFields rest)) =
      true ↔ (key :: Dict.keys rest).Nodup
    rw [Bool.and_eq_true, hnew, ih, List.nodup_cons]

theorem exists_fields_of_regularPairs {pairs : List (Data × Data)}
    (h : regularPairs pairs = true) :
    ∃ fields, pairs = ofFields fields ∧ ∀ p ∈ fields, p.2.regular = true := by
  induction pairs with
  | nil => exact ⟨[], rfl, by simp⟩
  | cons p rest ih =>
    obtain ⟨key, value⟩ := p
    unfold regularPairs at h
    split at h
    next heq => cases heq
    next key value rest heq =>
      cases heq
      obtain ⟨hvalue, hrest⟩ := Bool.and_eq_true_iff.mp h
      obtain ⟨fields, rfl, hfields⟩ := ih hrest
      exact ⟨(key, value) :: fields, rfl, List.forall_mem_cons.mpr ⟨hvalue, hfields⟩⟩
    next => cases h

theorem exists_fields_of_regular {pairs : List (Data × Data)}
    (h : (mapping pairs).regular = true) :
    ∃ fields, pairs = ofFields fields ∧ fields.keys.Nodup ∧ ∀ p ∈ fields, p.2.regular = true := by
  obtain ⟨hdistinct, hpairs⟩ := Bool.and_eq_true_iff.mp h
  obtain ⟨fields, rfl, hfields⟩ := exists_fields_of_regularPairs hpairs
  exact ⟨fields, rfl, keysDistinct_ofFields.mp hdistinct, hfields⟩

/-! ### Trees of data -/

mutual

/-- The tree of data, tags dropped. -/
def json : Data → Json
  | scalar c => c.toJson
  | sequence items => .array (jsonItems items)
  | mapping pairs => .object (jsonFields pairs)
  | tagged _ content => json content

/-- The trees of some items. -/
def jsonItems : List Data → List Json
  | [] => []
  | item :: rest => json item :: jsonItems rest

/-- The fields of some pairs. -/
def jsonFields : List (Data × Data) → List (String × Json)
  | [] => []
  | (key, value) :: rest => (scalarText key, json value) :: jsonFields rest

end

variable {d : Data} {fields : Dict Data}

theorem json_sequence (items : List Data) : json (sequence items) = .array (items.map json) :=
  congrArg Json.array (Value.eq_map rfl (fun _ _ => rfl) items)

theorem json_mapping (fields : Dict Data) :
    json (mapping (ofFields fields)) = .object (fields.mapValues json) :=
  congrArg Json.object (Value.eq_map (g := fun fields => jsonFields (ofFields fields)) rfl
    (fun _ _ => rfl) fields)

theorem toValue_sequence (items : List Data) :
    toValue (sequence items) = .list (items.map toValue) :=
  congrArg Value.list (Value.eq_map rfl (fun _ _ => rfl) items)

theorem vars_ofFields (h : fields.keys.Nodup) :
    vars (ofFields fields) = fields.mapValues toValue := by
  have hpairs : pairValues (ofFields fields) = fields.mapValues toValue :=
    Value.eq_map (g := fun fields => pairValues (ofFields fields)) rfl (fun _ _ => rfl) fields
  rw [vars, hpairs, Dict.ofPairs_of_nodup (by rwa [Dict.keys_mapValues])]

theorem sound_json (h : d.regular = true) : d.json.sound = true := by
  induction d using inductionOn with
  | scalar c =>
    cases c with
    | float x =>
      rw [json, Literal.toJson, Value.floatTree_of_isFinite h]
      exact h
    | _ => rfl
  | sequence items ih =>
    have hitems := regular_sequence_iff.mp h
    rw [json_sequence, Json.sound_array_iff, List.forall_mem_map]
    exact fun d hd => ih d hd (hitems d hd)
  | mapping pairs ih =>
    obtain ⟨fields, rfl, hkeys, hfields⟩ := exists_fields_of_regular h
    rw [json_mapping, Json.sound_object_iff, Dict.keys_mapValues]
    refine ⟨hkeys, ?_⟩
    rintro ⟨key, j⟩ hj
    obtain ⟨d, hd, rfl⟩ := Dict.mem_mapValues.mp hj
    exact ih (text key, d) (List.mem_map_of_mem hd) (hfields _ hd)
  | tagged => cases h

/-- As long as no key is moved, the tree of data is read as the value of the data. -/
theorem ofJson_json (h : d.regular = true) : Value.ofJson d.json = d.toValue := by
  induction d using inductionOn with
  | scalar c =>
    cases c with
    | float x =>
      rw [json, Literal.toJson, Value.floatTree_of_isFinite h]
      rfl
    | _ => rfl
  | sequence items ih =>
    have hitems := regular_sequence_iff.mp h
    rw [json_sequence, toValue_sequence, Value.ofJson, Value.ofJsonItems_eq, List.map_map]
    exact congrArg Value.list (List.map_congr_left fun d hd => ih d hd (hitems d hd))
  | mapping pairs ih =>
    obtain ⟨fields, rfl, hkeys, hfields⟩ := exists_fields_of_regular h
    have hvalue : toValue (mapping (ofFields fields)) = .map (vars (ofFields fields)) := rfl
    rw [json_mapping, hvalue, vars_ofFields hkeys, Value.ofJson, Value.ofJsonFields_eq,
      Dict.mapValues_mapValues]
    exact congrArg Value.map (Dict.mapValues_congr fun p hp =>
      ih (text p.1, p.2) (List.mem_map_of_mem hp) (hfields p hp))
  | tagged => cases h

/-! ### Trees of nodes -/

theorem eq_of_mark {tag : Option String} {data : Data} (h : d.regular = true)
    (hmark : mark tag data = d) : ownTag? tag = none ∧ d = data := by
  unfold mark at hmark
  split at hmark
  next name hown =>
    rw [← hmark] at h
    cases h
  next hown => exact ⟨hown, hmark.symm⟩

theorem text?_of_ofNode? {node : Node} {s : String} (h : ofNode? node = some (text s)) :
    node.text? = some s := by
  have hregular : (text s).regular = true := rfl
  cases node with
  | scalar tag isPlain t =>
    obtain ⟨c, hc, hmark⟩ := Option.map_eq_some_iff.mp h
    obtain ⟨-, heq⟩ := eq_of_mark hregular hmark
    cases heq
    rw [Literal.eq_of_ofScalar? hc]
    rfl
  | sequence tag nodes =>
    obtain ⟨items, -, hmark⟩ := Option.map_eq_some_iff.mp h
    cases (eq_of_mark hregular hmark).2
  | mapping tag nodes =>
    rw [ofNode?] at h
    split at h
    · split at h
      · cases (eq_of_mark hregular (Option.some.inj h)).2
      · cases h
    · cases h

mutual

/-- A node of regular data has the tree of the data. -/
theorem toJson?_of_ofNode? {d : Data} (hd : d.regular = true) :
    (node : Node) → ofNode? node = some d → node.toJson? = some d.json
  | .scalar tag isPlain t => by
    intro h
    obtain ⟨c, hc, hmark⟩ := Option.map_eq_some_iff.mp h
    -- A tag of its own would be in the data too, so the tree is not refused.
    obtain ⟨hown, rfl⟩ := eq_of_mark hd hmark
    simp [Node.toJson?, hown, hc, json]
  | .sequence tag nodes => by
    intro h
    obtain ⟨items, hitems, hmark⟩ := Option.map_eq_some_iff.mp h
    obtain ⟨hown, rfl⟩ := eq_of_mark hd hmark
    simp [Node.toJson?, hown, itemTrees?_of_ofItems? hd nodes hitems, json]
  | .mapping tag nodes => by
    intro h
    rw [ofNode?] at h
    split at h
    next pairs hpairs =>
      split at h
      next =>
        obtain ⟨hown, rfl⟩ := eq_of_mark hd (Option.some.inj h)
        have hregular := (Bool.and_eq_true_iff.mp hd).2
        simp [Node.toJson?, hown, pairTrees?_of_ofPairs? hregular nodes hpairs, json]
      next => cases h
    next => cases h

theorem itemTrees?_of_ofItems? {items : List Data} (hitems : regularItems items = true) :
    (nodes : List Node) → ofItems? nodes = some items →
      Node.itemTrees? nodes = some (jsonItems items)
  | [] => by
    rintro ⟨⟩
    rfl
  | node :: nodes => by
    intro h
    simp only [ofItems?, bind, Option.bind_eq_some_iff, pure, Option.some.injEq] at h
    obtain ⟨d, hd, rest, hrest, rfl⟩ := h
    obtain ⟨hfirst, hothers⟩ := Bool.and_eq_true_iff.mp hitems
    simp [Node.itemTrees?, toJson?_of_ofNode? hfirst node hd,
      itemTrees?_of_ofItems? hothers nodes hrest, jsonItems]

theorem pairTrees?_of_ofPairs? {pairs : List (Data × Data)} (hpairs : regularPairs pairs = true) :
    (nodes : List (Node × Node)) → ofPairs? nodes = some pairs →
      Node.pairTrees? nodes = some (jsonFields pairs)
  | [] => by
    rintro ⟨⟩
    rfl
  | (k, v) :: nodes => by
    intro h
    simp only [ofPairs?, bind, Option.bind_eq_some_iff, pure, Option.some.injEq] at h
    obtain ⟨key, hkey, value, hvalue, rest, hrest, rfl⟩ := h
    unfold regularPairs at hpairs
    split at hpairs
    next heq => cases heq
    next s value' rest' heq =>
      cases heq
      obtain ⟨hfirst, hothers⟩ := Bool.and_eq_true_iff.mp hpairs
      simp [Node.pairTrees?, text?_of_ofNode? hkey, toJson?_of_ofNode? hfirst v hvalue,
        pairTrees?_of_ofPairs? hothers nodes hrest, jsonFields, scalarText, keyText]
    next => cases hpairs

end

end Data

end Yaml

open Yaml (Data)

namespace VarsFile

variable {source : TextSource} {path text : String} {vars : Vars}

/-- A file of regular data binds the variables that the data binds in place. -/
theorem load_of_regular {pairs : List (Data × Data)} (htext : source path = .ok text)
    (hname : Path.extension? path ≠ some "json") (hread : Data.read? text = some (.mapping pairs))
    (h : (Data.mapping pairs).regular = true) :
    ∃ vars, load source path = .ok vars ∧ Value.sameVars vars (Data.vars pairs) = true := by
  obtain ⟨node, hnode, hdata⟩ := Option.bind_eq_some_iff.mp hread
  obtain ⟨fields, rfl, hkeys, -⟩ := Data.exists_fields_of_regular h
  let j := (Data.mapping (Data.ofFields fields)).json
  have hj : j.canonical = .object (Json.arranged (fields.mapValues Data.json)) := by
    rw [← Json.canonical_object, ← Data.json_mapping]
  have htree : tree path text = .ok j := by
    rw [tree, if_neg (by simpa using hname), Yaml.json?, hnode, Option.bind_some,
      Data.toJson?_of_ofNode? h node hdata]
    rfl
  have hsame : (Value.ofJson j.canonical).same (Value.ofJson j) = true :=
    Value.same_ofJson_canonical (Data.sound_json h)
  rw [Data.ofJson_json h, hj] at hsame
  refine ⟨_, ?_, hsame⟩
  rw [load, htext]
  simp only [htree, bind, Except.bind, hj]
  rfl

/-- However often the file has a key, the variables have it once. -/
theorem nodup_load (h : load source path = .ok vars) : vars.keys.Nodup := by
  unfold load at h
  split at h
  · cases h
  · obtain ⟨j, -, h⟩ := bind_eq_ok_iff.mp h
    cases j with
    | null =>
      cases h
      exact List.nodup_nil
    | object fields =>
      rw [Json.canonical_object, Value.ofJson, Value.ofJsonFields_eq] at h
      cases h
      rw [Dict.keys_mapValues]
      exact Dict.nodup_sorted _
    | int n =>
      change ofValue path (Value.ofJson (.int n)) = .ok vars at h
      rw [Value.ofJson] at h
      split at h <;> cases h
    | _ => cases h

end VarsFile

namespace PlayOutline

/-- The play with its variables in its mapping alone. -/
def withMapping (outline : PlayOutline) (pairs : List (Data × Data)) : PlayOutline :=
  { outline with vars := some (.mapping pairs), varsFiles := [] }

/-- The play with its variables in a file alone. -/
def withFile (outline : PlayOutline) (file : String) : PlayOutline :=
  { outline with vars := none, varsFiles := [file] }

end PlayOutline

namespace Playbook

variable {source : TextSource} {here : Location} {outline : PlayOutline} {files : List String}
  {inline vars : Vars} {layers : List Vars}

/-- The files hold these variables, each file its own. -/
def FilesHold (source : TextSource) (here : Location) : List String → List Vars → Prop :=
  List.Forall₂ fun file layer => VarsFile.load source (Path.join here.base file) = .ok layer

/-- What the variables of the play are put together from: those of its mapping, and those of
its files in their order. -/
structure Layered (source : TextSource) (here : Location) (outline : PlayOutline) (inline : Vars)
    (layers : List Vars) : Prop where
  inline : Entry.varsOf outline.vars = .ok inline
  files : FilesHold source here outline.varsFiles layers

/-- The value in the last of the layers that bind the key. -/
def lastBinding? (layers : List Vars) (key : String) : Option Value :=
  layers.reverse.findSome? fun layer => layer.get? key

theorem varsWith_eq_ok_iff : varsWith source here inline files = .ok vars ↔
    ∃ layers, FilesHold source here files layers ∧ vars = layers.foldl Dict.extend inline := by
  induction files generalizing inline with
  | nil => simp [varsWith, FilesHold, eq_comm]
  | cons file rest ih =>
    rw [varsWith]
    simp only [bind_eq_ok_iff, ih]
    constructor
    · rintro ⟨layer, hlayer, layers, hlayers, rfl⟩
      exact ⟨layer :: layers, .cons hlayer hlayers, rfl⟩
    · rintro ⟨_, hlayers, rfl⟩
      cases hlayers with
      | cons hlayer hlayers => exact ⟨_, hlayer, _, hlayers, rfl⟩

theorem playVars_eq_ok_iff : playVars source here outline = .ok vars ↔ ∃ inline layers,
    Layered source here outline inline layers ∧ vars = layers.foldl Dict.extend inline := by
  constructor
  · intro h
    unfold playVars at h
    cases hinline : Entry.varsOf outline.vars with
    | error message =>
      rw [hinline] at h
      cases h
    | ok inline =>
      rw [hinline] at h
      obtain ⟨layers, hlayers, rfl⟩ := varsWith_eq_ok_iff.mp h
      exact ⟨inline, layers, ⟨hinline, hlayers⟩, rfl⟩
  · rintro ⟨inline, layers, ⟨hinline, hlayers⟩, rfl⟩
    unfold playVars
    rw [hinline]
    exact varsWith_eq_ok_iff.mpr ⟨layers, hlayers, rfl⟩

theorem FilesHold.nodup (h : FilesHold source here files layers) :
    ∀ layer ∈ layers, layer.keys.Nodup := by
  induction h with
  | nil => simp
  | cons hlayer _ ih => exact List.forall_mem_cons.mpr ⟨VarsFile.nodup_load hlayer, ih⟩

/-- Each layer goes over those below it. -/
theorem get?_foldl_extend (h : ∀ layer ∈ layers, layer.keys.Nodup) (inline : Vars) (key : String) :
    (layers.foldl Dict.extend inline).get? key =
      (lastBinding? layers key).or (inline.get? key) := by
  induction layers generalizing inline with
  | nil => rfl
  | cons layer rest ih =>
    obtain ⟨hlayer, hrest⟩ := List.forall_mem_cons.mp h
    have hlast : lastBinding? (layer :: rest) key =
        (lastBinding? rest key).or (layer.get? key) := by
      simp [lastBinding?, List.findSome?_append]
    rw [List.foldl_cons, ih hrest, Dict.get?_extend hlayer, hlast, Option.or_assoc]

theorem playVars_withMapping (pairs : List (Data × Data)) :
    playVars source here (outline.withMapping pairs) = .ok (Data.vars pairs) := rfl

theorem playVars_withFile {file : String}
    (h : VarsFile.load source (Path.join here.base file) = .ok vars) :
    playVars source here (outline.withFile file) = .ok (Dict.ofPairs vars) :=
  playVars_eq_ok_iff.mpr ⟨[], [vars], ⟨rfl, .cons h .nil⟩, rfl⟩

/-- Plays that differ in nothing but the place of their variables come out the same, these
variables apart. -/
theorem play_withFile {file : String} {pairs : List (Data × Data)}
    (h : playVars source here (outline.withFile file) = .ok vars) :
    play source here (outline.withFile file) =
      (play source here (outline.withMapping pairs)).map fun p => { p with vars } := by
  rw [play_eq, play_eq, h, playVars_withMapping]
  simp only [PlayOutline.withFile, PlayOutline.withMapping, bind, Except.bind]
  cases tasks source here outline.tasks with
  | error => rfl
  | ok ts =>
    cases tasks source here outline.handlers with
    | error => rfl
    | ok hs => cases modules source here outline.modules <;> rfl

/-- Regular variables come to the same in the mapping of a play and in a file: the two plays
differ at most in the order of their variables. Where there are more files, the last one that
binds a key decides, and the mapping decides if none does. -/
theorem vars_of_sources (source : TextSource) (here : Location) (outline : PlayOutline) :
    (∀ pairs file text, (Data.mapping pairs).regular = true →
      source (Path.join here.base file) = .ok text →
      Path.extension? (Path.join here.base file) ≠ some "json" →
      Data.read? text = some (.mapping pairs) →
      ∃ vars, playVars source here (outline.withFile file) = .ok vars ∧
        playVars source here (outline.withMapping pairs) = .ok (Data.vars pairs) ∧
        Value.sameVars vars (Data.vars pairs) = true ∧
        play source here (outline.withFile file) =
          (play source here (outline.withMapping pairs)).map fun p => { p with vars }) ∧
    (∀ inline layers, Layered source here outline inline layers →
      ∃ vars, playVars source here outline = .ok vars ∧
        ∀ key, vars.get? key = (lastBinding? layers key).or (inline.get? key)) ∧
    ∀ p, play source here outline = .ok p → playVars source here outline = .ok p.vars ∧
      ∃ inline layers, Layered source here outline inline layers := by
  refine ⟨fun pairs file text hregular htext hname hread => ?_, fun inline layers h => ?_,
    fun p hp => ?_⟩
  · obtain ⟨vars, hload, hsame⟩ := VarsFile.load_of_regular htext hname hread hregular
    have hvars : playVars source here (outline.withFile file) = .ok vars := by
      rw [playVars_withFile hload, Dict.ofPairs_of_nodup (VarsFile.nodup_load hload)]
    exact ⟨vars, hvars, playVars_withMapping pairs, hsame, play_withFile hvars⟩
  · exact ⟨_, playVars_eq_ok_iff.mpr ⟨inline, layers, h, rfl⟩,
      get?_foldl_extend h.files.nodup inline⟩
  · have hvars := (play_eq_ok_iff.mp hp).vars
    obtain ⟨inline, layers, hlayers, -⟩ := playVars_eq_ok_iff.mp hvars
    exact ⟨hvars, inline, layers, hlayers⟩

/-- A file of variables with a whole number beyond the words. -/
def nested : String :=
  "n: 18446744073709551615\nx: 0.5\nm:\n  z: [1, ~]\n  b: yes\nk: first\n"

/-- Two files of variables, the second of which binds a key of the first again. -/
def twoFiles : TextSource := .ofFiles [("./a.yml", nested), ("./b.yml", "k: second\nlast: -3\n")]

/-- A play with both files that has another binding of the key in its mapping. -/
def covered : PlayOutline where
  vars := some (.mapping [(Data.text "k", Data.text "own"), (Data.text "o", .scalar (.bool true))])
  varsFiles := ["a.yml", "b.yml"]

theorem vars_of_sources_two_files : ∃ pairs vars p inline layers,
    (Data.mapping pairs).regular = true ∧ Data.read? nested = some (.mapping pairs) ∧
    playVars twoFiles ⟨"site", "."⟩ (covered.withFile "a.yml") = .ok vars ∧
    Value.sameVars vars (Data.vars pairs) = true ∧
    play twoFiles ⟨"site", "."⟩ covered = .ok p ∧
    Layered twoFiles ⟨"site", "."⟩ covered inline layers ∧
    (∀ key, p.vars.get? key = (lastBinding? layers key).or (inline.get? key)) ∧
    Value.sameVars p.vars [("k", .string "second"), ("o", .bool true), ("last", .int (-3)),
      ("n", .float 18446744073709551615.0), ("x", .float 0.5),
      ("m", .map [("b", .string "yes"), ("z", .list [.int 1, .nil])])] = true := by
  obtain ⟨hsources, hlayers, hplay⟩ := vars_of_sources twoFiles ⟨"site", "."⟩ covered
  have hnested : ∃ pairs, Data.read? nested = some (.mapping pairs) ∧
      (Data.mapping pairs).regular = true := by
    have hread : (Data.read? nested).any (fun data =>
        data.regular && data.kind == "a mapping") = true := by decide +kernel
    cases hdata : Data.read? nested with
    | none =>
      rw [hdata] at hread
      cases hread
    | some data =>
      rw [hdata] at hread
      obtain ⟨hregular, hkind⟩ := Bool.and_eq_true_iff.mp hread
      cases data with
      | mapping pairs => exact ⟨pairs, rfl, hregular⟩
      | scalar c => cases c <;> simp [Data.kind] at hkind
      | sequence items => simp [Data.kind] at hkind
      | tagged tag content => cases hregular
  have hcovered : (play twoFiles ⟨"site", "."⟩ covered).toOption.any (fun p =>
      Value.sameVars p.vars [("k", .string "second"), ("o", .bool true), ("last", .int (-3)),
        ("n", .float 18446744073709551615.0), ("x", .float 0.5),
        ("m", .map [("b", .string "yes"), ("z", .list [.int 1, .nil])])]) = true := by
    decide +kernel
  obtain ⟨pairs, hread, hregular⟩ := hnested
  obtain ⟨vars, hvars, -, hsame, -⟩ :=
    hsources pairs "a.yml" nested hregular rfl (by decide) hread
  cases hp : play twoFiles ⟨"site", "."⟩ covered with
  | error e =>
    rw [hp] at hcovered
    cases hcovered
  | ok p =>
    rw [hp] at hcovered
    obtain ⟨hpvars, inline, layers, hparts⟩ := hplay p hp
    obtain ⟨_, hbound, hlookup⟩ := hlayers inline layers hparts
    rw [hpvars] at hbound
    cases hbound
    exact ⟨pairs, vars, p, inline, layers, hregular, hread, hvars, hsame, rfl, hparts, hlookup,
      hcovered⟩

end Playbook

end PlaybookRunner
