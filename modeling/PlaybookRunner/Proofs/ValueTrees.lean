import PlaybookRunner.Proofs.Doubles
import PlaybookRunner.Value.Json

/-!
# Values and their trees

A plain value has no result and no infinite double in it. Its record tree is
read back as the value itself, and its plain tree, which has the keys in
ascending order, as an equal one; the two readers agree on every tree.
-/

namespace PlaybookRunner

namespace Dict

variable {α β : Type}

theorem sizeOf_lt_of_mem [SizeOf α] {d : Dict α} {p : String × α} (h : p ∈ d) :
    sizeOf p.2 < sizeOf d := by
  have hlt := List.sizeOf_lt_of_mem h
  rw [Prod.mk.sizeOf_spec] at hlt
  omega

theorem keys_mapValues (f : α → β) (d : Dict α) : (d.mapValues f).keys = d.keys := by
  simp [keys, mapValues]

theorem mem_mapValues {f : α → β} {d : Dict α} {key : String} {value : β} :
    (key, value) ∈ d.mapValues f ↔ ∃ a, (key, a) ∈ d ∧ f a = value := by
  simp [mapValues, and_left_comm]

theorem mapValues_congr {f g : α → β} {d : Dict α} (h : ∀ p ∈ d, f p.2 = g p.2) :
    d.mapValues f = d.mapValues g :=
  List.map_congr_left fun p hp => Prod.ext rfl (h p hp)

theorem mapValues_eq_self {f : α → α} {d : Dict α} (h : ∀ p ∈ d, f p.2 = p.2) :
    d.mapValues f = d :=
  (mapValues_congr (g := id) h).trans (List.map_id d)

theorem mapValues_mapValues {γ : Type} (f : α → β) (g : β → γ) (d : Dict α) :
    (d.mapValues f).mapValues g = d.mapValues fun a => g (f a) := by
  simp [mapValues, Function.comp_def]

end Dict

namespace Value

/-- Induction over the parts of a value. -/
@[elab_as_elim]
theorem inductionOn {P : Value → Prop} (nil : P .nil) (bool : ∀ b, P (.bool b))
    (int : ∀ n, P (.int n)) (float : ∀ x, P (.float x)) (string : ∀ s, P (.string s))
    (list : ∀ items, (∀ v ∈ items, P v) → P (.list items))
    (map : ∀ fields, (∀ p ∈ fields, P p.2) → P (.map fields))
    (result : ∀ changed failed data, (∀ p ∈ data, P p.2) → P (.result changed failed data)) :
    (v : Value) → P v
  | .nil => nil
  | .bool b => bool b
  | .int n => int n
  | .float x => float x
  | .string s => string s
  | .list items => list items fun v _ =>
    inductionOn nil bool int float string list map result v
  | .map fields => map fields fun p hp =>
    have := Dict.sizeOf_lt_of_mem hp
    inductionOn nil bool int float string list map result p.2
  | .result changed failed data => result changed failed data fun p hp =>
    have := Dict.sizeOf_lt_of_mem hp
    inductionOn nil bool int float string list map result p.2
termination_by v => sizeOf v

mutual

/-- No result and no double that is not finite occurs in the value, and the keys of every map in
it are distinct. -/
def plain : Value → Bool
  | nil => true
  | bool _ => true
  | int _ => true
  | float x => x.isFinite
  | string _ => true
  | list items => plainItems items
  | map fields => decide (Dict.keys fields).Nodup && plainFields fields
  | result .. => false

/-- All items are plain. -/
def plainItems : List Value → Bool
  | [] => true
  | v :: rest => plain v && plainItems rest

/-- All fields are plain. -/
def plainFields : List (String × Value) → Bool
  | [] => true
  | (_, v) :: rest => plain v && plainFields rest

end

theorem plainItems_iff {items : List Value} :
    plainItems items = true ↔ ∀ v ∈ items, v.plain = true := by
  induction items with
  | nil => simp [plainItems]
  | cons v rest ih => simp [plainItems, ih]

theorem plainFields_iff {fields : List (String × Value)} :
    plainFields fields = true ↔ ∀ p ∈ fields, p.2.plain = true := by
  induction fields with
  | nil => simp [plainFields]
  | cons p rest ih => simp [plainFields, ih]

theorem plain_map_iff {fields : List (String × Value)} :
    (map fields).plain = true ↔
      (Dict.keys fields).Nodup ∧ ∀ p ∈ fields, p.2.plain = true := by
  rw [plain, Bool.and_eq_true, decide_eq_true_iff, plainFields_iff]

/-- A function on lists that goes through them item by item. -/
theorem eq_map {α β : Type} {f : α → β} {g : List α → List β} (nil : g [] = [])
    (cons : ∀ a rest, g (a :: rest) = f a :: g rest) (l : List α) : g l = l.map f := by
  induction l with
  | nil => exact nil
  | cons a rest ih => rw [cons, ih, List.map_cons]

theorem itemsToJson_eq (items : List Value) : itemsToJson items = items.map toJson :=
  eq_map rfl (fun _ _ => rfl) items

theorem fieldsToJson_eq (fields : List (String × Value)) :
    fieldsToJson fields = Dict.mapValues toJson fields :=
  eq_map rfl (fun _ _ => rfl) fields

theorem itemsToRecord_eq (items : List Value) : itemsToRecord items = items.map toRecord :=
  eq_map rfl (fun _ _ => rfl) items

theorem fieldsToRecord_eq (fields : List (String × Value)) :
    fieldsToRecord fields = Dict.mapValues toRecord fields :=
  eq_map rfl (fun _ _ => rfl) fields

theorem ofJsonItems_eq (items : List Json) : ofJsonItems items = items.map ofJson :=
  eq_map rfl (fun _ _ => rfl) items

theorem ofJsonFields_eq (fields : List (String × Json)) :
    ofJsonFields fields = Dict.mapValues ofJson fields :=
  eq_map rfl (fun _ _ => rfl) fields

theorem decodeItems_eq (items : List Json) : decodeItems items = items.map decode :=
  eq_map rfl (fun _ _ => rfl) items

theorem decodeFields_eq (fields : List (String × Json)) :
    decodeFields fields = Dict.mapValues decode fields :=
  eq_map rfl (fun _ _ => rfl) fields

theorem floatTree_of_isFinite {x : Float} (h : x.isFinite = true) : floatTree x = .float x :=
  if_pos h

/-- A plain value is what its record tree is decoded as, keys in their order. -/
theorem decode_toRecord {v : Value} (h : v.plain = true) : decode v.toRecord = v := by
  induction v using inductionOn with
  | nil => rfl
  | bool b => rfl
  | int n =>
    simp [toRecord, decode, scalarOf, nilOf?, boolOf?, intOf?, Decimal.fitsWord_toInt]
  | float x =>
    rw [toRecord, floatTree_of_isFinite h]
    rfl
  | string s => rfl
  | list items ih =>
    have hitems := plainItems_iff.mp h
    rw [toRecord, decode, itemsToRecord_eq, decodeItems_eq, List.map_map]
    refine congrArg list ((List.map_congr_left fun v hv => ?_).trans (List.map_id items))
    exact ih v hv (hitems v hv)
  | map fields ih =>
    obtain ⟨hkeys, hfields⟩ := plain_map_iff.mp h
    rw [toRecord, decode, fieldsToRecord_eq, decodeFields_eq, Dict.mapValues_mapValues,
      Dict.mapValues_eq_self fun p hp => ih p hp (hfields p hp), Dict.ofPairs_of_nodup hkeys]
  | result changed failed data ih => cases h

end Value

namespace Json

/-- Induction over the parts of a tree. -/
@[elab_as_elim]
theorem inductionOn {P : Json → Prop} (null : P .null) (bool : ∀ b, P (.bool b))
    (int : ∀ n, P (.int n)) (float : ∀ x, P (.float x)) (string : ∀ s, P (.string s))
    (array : ∀ items, (∀ j ∈ items, P j) → P (.array items))
    (object : ∀ fields, (∀ p ∈ fields, P p.2) → P (.object fields)) : (j : Json) → P j
  | .null => null
  | .bool b => bool b
  | .int n => int n
  | .float x => float x
  | .string s => string s
  | .array items => array items fun j _ =>
    inductionOn null bool int float string array object j
  | .object fields => object fields fun p hp =>
    have := Dict.sizeOf_lt_of_mem hp
    inductionOn null bool int float string array object p.2
termination_by j => sizeOf j

mutual

/-- The keys of every object are distinct and every double is finite, as in a tree that a library
holds. -/
def sound : Json → Bool
  | null => true
  | bool _ => true
  | int _ => true
  | float x => x.isFinite
  | string _ => true
  | array items => soundItems items
  | object fields => decide (Dict.keys fields).Nodup && soundFields fields

/-- All items are sound. -/
def soundItems : List Json → Bool
  | [] => true
  | j :: rest => sound j && soundItems rest

/-- All fields are sound. -/
def soundFields : List (String × Json) → Bool
  | [] => true
  | (_, j) :: rest => sound j && soundFields rest

end

theorem sound_array_iff {items : List Json} :
    (array items).sound = true ↔ ∀ j ∈ items, j.sound = true := by
  rw [sound]
  induction items with
  | nil => simp [soundItems]
  | cons j rest ih => simp [soundItems, ih]

theorem soundFields_iff {fields : List (String × Json)} :
    soundFields fields = true ↔ ∀ p ∈ fields, p.2.sound = true := by
  induction fields with
  | nil => simp [soundFields]
  | cons p rest ih => simp [soundFields, ih]

theorem sound_object_iff {fields : List (String × Json)} :
    (object fields).sound = true ↔
      (Dict.keys fields).Nodup ∧ ∀ p ∈ fields, p.2.sound = true := by
  rw [sound, Bool.and_eq_true, decide_eq_true_iff, soundFields_iff]

end Json

namespace Value

/-- The reader that tries the kinds in turn and the one by the kind of the tree agree. -/
theorem ofJson_eq_decode {j : Json} (h : j.sound = true) : ofJson j = decode j := by
  induction j using Json.inductionOn with
  | null => rfl
  | bool b => rfl
  | int n =>
    cases hfits : Decimal.fitsWord n <;>
      simp [ofJson, decode, scalarOf, nilOf?, boolOf?, intOf?, floatOf?, hfits]
  | float x => rfl
  | string s => rfl
  | array items ih =>
    have hitems := Json.sound_array_iff.mp h
    rw [ofJson, decode, ofJsonItems_eq, decodeItems_eq]
    exact congrArg list (List.map_congr_left fun j hj => ih j hj (hitems j hj))
  | object fields ih =>
    obtain ⟨hkeys, hfields⟩ := Json.sound_object_iff.mp h
    rw [ofJson, decode, ofJsonFields_eq, decodeFields_eq, Dict.ofPairs_of_nodup
      ((Dict.keys_mapValues decode fields).symm ▸ hkeys)]
    exact congrArg map (Dict.mapValues_congr fun p hp => ih p hp (hfields p hp))

theorem sound_toJson {v : Value} (h : v.plain = true) : v.toJson.sound = true := by
  induction v using inductionOn with
  | nil => rfl
  | bool b => rfl
  | int n => rfl
  | float x =>
    rw [toJson, floatTree_of_isFinite h]
    exact h
  | string s => rfl
  | list items ih =>
    have hitems := plainItems_iff.mp h
    rw [toJson, itemsToJson_eq, Json.sound_array_iff]
    simpa using fun v hv => ih v hv (hitems v hv)
  | map fields ih =>
    obtain ⟨hkeys, hfields⟩ := plain_map_iff.mp h
    have htrees : (Dict.mapValues toJson fields).keys.Nodup := by rwa [Dict.keys_mapValues]
    have hperm := Dict.sorted_perm htrees
    rw [toJson, fieldsToJson_eq, Json.sound_object_iff]
    refine ⟨Dict.nodup_of_perm hperm htrees, ?_⟩
    rintro ⟨key, j⟩ hj
    obtain ⟨v, hv, rfl⟩ := Dict.mem_mapValues.mp (hperm.mem_iff.mp hj)
    exact ih _ hv (hfields _ hv)
  | result changed failed data ih => cases h

theorem sameItems_map {α : Type} {f g : α → Value} {items : List α}
    (h : ∀ a ∈ items, (f a).same (g a) = true) :
    sameItems (items.map f) (items.map g) = true := by
  induction items with
  | nil => rfl
  | cons a rest ih =>
    obtain ⟨ha, hrest⟩ := List.forall_mem_cons.mp h
    rw [List.map_cons, List.map_cons, sameItems, ha, ih hrest]
    rfl

theorem sameFields_iff {as bs : List (String × Value)} :
    sameFields as bs = true ↔
      ∀ p ∈ as, ∃ b, Dict.get? bs p.1 = some b ∧ p.2.same b = true := by
  induction as with
  | nil => simp [sameFields]
  | cons p rest ih =>
    rw [sameFields, Bool.and_eq_true, ih, List.forall_mem_cons]
    refine and_congr_left fun _ => ?_
    unfold Dict.get?
    cases List.lookup p.1 bs <;> simp

/-- Bindings that are the same one by one, in whatever order. -/
theorem sameVars_mapValues_of_perm {α : Type} {f g : α → Value} {as : Vars} {d : Dict α}
    (hperm : as.Perm (d.mapValues f)) (hkeys : d.keys.Nodup)
    (h : ∀ p ∈ d, (f p.2).same (g p.2) = true) : sameVars as (d.mapValues g) = true := by
  have hlength : as.length = (d.mapValues g).length := by
    simpa [Dict.mapValues] using hperm.length_eq
  have hkeys' : (d.mapValues g).keys.Nodup := by rwa [Dict.keys_mapValues]
  rw [sameVars, hlength, beq_self_eq_true, Bool.true_and, sameFields_iff]
  rintro ⟨key, v⟩ hv
  obtain ⟨a, ha, rfl⟩ := Dict.mem_mapValues.mp (hperm.mem_iff.mp hv)
  exact ⟨g a, Dict.get?_of_mem hkeys' (Dict.mem_mapValues.mpr ⟨a, ha, rfl⟩), h _ ha⟩

theorem sameVars_of_perm {f : Value → Value} {as bs : Vars} (hperm : as.Perm (bs.mapValues f))
    (hkeys : bs.keys.Nodup) (h : ∀ p ∈ bs, (f p.2).same p.2 = true) : sameVars as bs = true := by
  have hsame := sameVars_mapValues_of_perm (g := id) hperm hkeys h
  rwa [Dict.mapValues_eq_self fun _ _ => rfl] at hsame

theorem same_ofJson_toJson {v : Value} (h : v.plain = true) :
    (ofJson v.toJson).same v = true := by
  induction v using inductionOn with
  | nil => rfl
  | bool b => simp [toJson, ofJson, same]
  | int n => simp [toJson, ofJson, same, Decimal.fitsWord_toInt]
  | float x =>
    rw [toJson, floatTree_of_isFinite h]
    exact Double.beq_self (Double.isNaN_of_isFinite h)
  | string s => simp [toJson, ofJson, same]
  | list items ih =>
    have hitems := plainItems_iff.mp h
    rw [toJson, ofJson, same, itemsToJson_eq, ofJsonItems_eq, List.map_map]
    simpa [Function.comp_def] using sameItems_map (g := id) fun v hv => ih v hv (hitems v hv)
  | map fields ih =>
    -- The tree has the keys in ascending order, so the maps are the same only up to order.
    obtain ⟨hkeys, hfields⟩ := plain_map_iff.mp h
    have htrees : (Dict.mapValues toJson fields).keys.Nodup := by rwa [Dict.keys_mapValues]
    rw [toJson, ofJson, fieldsToJson_eq, ofJsonFields_eq]
    refine sameVars_of_perm (f := fun v => ofJson v.toJson) ?_ hkeys
      fun p hp => ih p hp (hfields p hp)
    rw [← Dict.mapValues_mapValues toJson ofJson]
    exact (Dict.sorted_perm htrees).map _
  | result changed failed data ih => cases h

theorem same_ofJson_self {j : Json} (h : j.sound = true) : (ofJson j).same (ofJson j) = true := by
  induction j using Json.inductionOn with
  | null => rfl
  | bool b => simp [ofJson, same]
  | int n =>
    rw [ofJson]
    split
    next => simp [same]
    next => exact Double.beq_self (Double.isNaN_ofInt n)
  | float x => exact Double.beq_self (Double.isNaN_of_isFinite h)
  | string s => simp [ofJson, same]
  | array items ih =>
    have hitems := Json.sound_array_iff.mp h
    rw [ofJson, same, ofJsonItems_eq]
    exact sameItems_map fun j hj => ih j hj (hitems j hj)
  | object fields ih =>
    obtain ⟨hkeys, hfields⟩ := Json.sound_object_iff.mp h
    rw [ofJson, ofJsonFields_eq]
    exact sameVars_mapValues_of_perm (.refl _) hkeys fun p hp => ih p hp (hfields p hp)

theorem same_decode_toJson {v : Value} (h : v.plain = true) : (decode v.toJson).same v = true := by
  rw [← ofJson_eq_decode (sound_toJson h)]
  exact same_ofJson_toJson h

/-- Both readers take the plain tree of a plain value back to an equal value, and they read every
tree as the same value. -/
theorem decoders_undo_toJson :
    (∀ v : Value, v.plain = true →
      (ofJson v.toJson).same v = true ∧ (decode v.toJson).same v = true) ∧
    ∀ j : Json, j.sound = true →
      ofJson j = decode j ∧ (ofJson j).same (decode j) = true := by
  refine ⟨fun v h => ⟨same_ofJson_toJson h, same_decode_toJson h⟩, fun j h => ?_⟩
  rw [← ofJson_eq_decode h]
  exact ⟨rfl, same_ofJson_self h⟩

/-- The keys of this value do not ascend, and the numbers of the tree exceed a word. -/
theorem decoders_undo_toJson_unordered :
    let v : Value := .map
      [("b", .list [.nil, .int (-9223372036854775808), .float 0.5]),
        ("a", .map [("d", .bool true), ("c", .string "\"\n")])]
    let j : Json := .object
      [("b", .array [.int 9223372036854775808, .int 18446744073709551615]), ("a", .float 1e300)]
    (v.plain = true ∧ (ofJson v.toJson).same v = true ∧ (decode v.toJson).same v = true) ∧
      j.sound = true ∧ ofJson j = decode j ∧ (ofJson j).same (decode j) = true := by
  intro v j
  have hv : v.plain = true := by decide +kernel
  have hj : j.sound = true := by decide +kernel
  exact ⟨⟨hv, decoders_undo_toJson.1 v hv⟩, hj, decoders_undo_toJson.2 j hj⟩

end Value

end PlaybookRunner
