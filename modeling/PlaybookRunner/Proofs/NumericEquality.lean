import PlaybookRunner.Proofs.ValueTrees

/-!
# The equality of the language

Two lists are equal exactly if their items are, so that a whole number is found
equal to a double through any depth of lists. Two maps are compared in kind and
content: they are equal exactly if their values are and no whole number stands
where the other map has a double.
-/

namespace PlaybookRunner.Value

/-- A whole number faces a double, at the top or at one place inside lists. -/
inductive Mixed : Value → Value → Prop
  | intFloat (n : Int64) (x : Float) : Mixed (int n) (float x)
  | floatInt (x : Float) (n : Int64) : Mixed (float x) (int n)
  | list {as bs : List Value} {a b : Value} (hmem : (a, b) ∈ as.zip bs) (h : Mixed a b) :
      Mixed (list as) (list bs)

/-- The same keys are bound. -/
def SameKeys (as bs : Vars) : Prop := ∀ key, key ∈ as.keys ↔ key ∈ bs.keys

/-- The values at every key that both bind are related. -/
def Throughout (R : Value → Value → Prop) (as bs : Vars) : Prop :=
  ∀ key a b, as.get? key = some a → bs.get? key = some b → R a b

theorem equalItems_iff {as bs : List Value} :
    equalItems as bs = true ↔ List.Forall₂ (fun a b => a.equal b = true) as bs := by
  induction as generalizing bs with
  | nil => cases bs <;> simp [equalItems]
  | cons a as ih => cases bs <;> simp [equalItems, ih]

theorem sameItems_iff {as bs : List Value} :
    sameItems as bs = true ↔ List.Forall₂ (fun a b => a.same b = true) as bs := by
  induction as generalizing bs with
  | nil => cases bs <;> simp [sameItems]
  | cons a as ih => cases bs <;> simp [sameItems, ih]

theorem equal_of_same {a b : Value} (h : a.same b = true) : a.equal b = true := by
  induction a using inductionOn generalizing b with
  | list as ih =>
    cases b with
    | list bs =>
      obtain ⟨hlength, hsame⟩ := List.forall₂_iff_zip.mp (sameItems_iff.mp h)
      refine equalItems_iff.mpr (List.forall₂_iff_zip.mpr ⟨hlength, fun {a b} hmem => ?_⟩)
      exact ih a (List.of_mem_zip hmem).1 (hsame hmem)
    | _ => cases h
  | int n => cases b <;> first | exact h | cases h
  | float x => cases b <;> first | exact h | cases h
  | _ => exact h

theorem not_mixed_of_same {a b : Value} (h : a.same b = true) : ¬ Mixed a b := by
  intro hmixed
  induction hmixed with
  | intFloat n x => cases h
  | floatInt x n => cases h
  | list hmem _ ih => exact ih ((List.forall₂_iff_zip.mp (sameItems_iff.mp h)).2 hmem)

theorem same_of_equal {a b : Value} (h : a.equal b = true) (hmixed : ¬ Mixed a b) :
    a.same b = true := by
  induction a using inductionOn generalizing b with
  | list as ih =>
    cases b with
    | list bs =>
      obtain ⟨hlength, hequal⟩ := List.forall₂_iff_zip.mp (equalItems_iff.mp h)
      refine sameItems_iff.mpr (List.forall₂_iff_zip.mpr ⟨hlength, fun {a b} hmem => ?_⟩)
      exact ih a (List.of_mem_zip hmem).1 (hequal hmem) fun hab => hmixed (.list hmem hab)
    | _ => exact h
  | int n =>
    cases b with
    | float x => exact absurd (.intFloat n x) hmixed
    | _ => exact h
  | float x =>
    cases b with
    | int n => exact absurd (.floatInt x n) hmixed
    | _ => exact h
  | _ => exact h

/-- What kind and content add to the equality of the language. -/
theorem same_iff {a b : Value} : a.same b = true ↔ a.equal b = true ∧ ¬ Mixed a b :=
  ⟨fun h => ⟨equal_of_same h, not_mixed_of_same h⟩, fun h => same_of_equal h.1 h.2⟩

section

variable {as bs : Vars}

theorem SameKeys.length_eq (h : SameKeys as bs) (has : as.keys.Nodup) (hbs : bs.keys.Nodup) :
    as.length = bs.length := by
  simpa [Dict.keys] using ((List.perm_ext_iff_of_nodup has hbs).mpr h).length_eq

theorem sameKeys_of_subset (h : as.keys ⊆ bs.keys) (has : as.keys.Nodup)
    (hlength : as.length = bs.length) : SameKeys as bs := by
  have hle : bs.keys.length ≤ as.keys.length := by simp [Dict.keys, hlength]
  exact fun key => ((has.subperm h).perm_of_length_le hle).mem_iff

theorem exists_get? {key : String} (h : key ∈ as.keys) : ∃ a, as.get? key = some a := by
  cases hget : as.get? key with
  | some a => exact ⟨a, rfl⟩
  | none =>
    obtain ⟨p, hp, rfl⟩ := List.mem_map.mp h
    exact absurd (List.lookup_eq_none_iff.mp hget p hp) (by simp)

theorem mem_keys_of_get? {key : String} {a : Value} (h : as.get? key = some a) : key ∈ as.keys :=
  List.mem_map_of_mem (f := Prod.fst) (Dict.mem_of_get? h)

theorem sameVars_iff (has : as.keys.Nodup) (hbs : bs.keys.Nodup) :
    sameVars as bs = true ↔ SameKeys as bs ∧ Throughout (fun a b => a.same b = true) as bs := by
  rw [sameVars, Bool.and_eq_true, beq_iff_eq, sameFields_iff]
  constructor
  · rintro ⟨hlength, hfields⟩
    constructor
    · refine sameKeys_of_subset (fun key hkey => ?_) has hlength
      obtain ⟨p, hp, rfl⟩ := List.mem_map.mp hkey
      obtain ⟨b, hb, -⟩ := hfields p hp
      exact mem_keys_of_get? hb
    · intro key a b ha hb
      obtain ⟨c, hc, hsame⟩ := hfields (key, a) (Dict.mem_of_get? ha)
      cases hb.symm.trans hc
      exact hsame
  · rintro ⟨hkeys, hvalues⟩
    refine ⟨hkeys.length_eq has hbs, fun p hp => ?_⟩
    obtain ⟨b, hb⟩ := exists_get? ((hkeys p.1).mp (List.mem_map_of_mem hp))
    exact ⟨b, hb, hvalues p.1 p.2 b (Dict.get?_of_mem has hp) hb⟩

end

/-- Equality of lists is equality of their items. Equality of maps is that of their keys and values
as long as no value of the one has a whole number where that of the other has a double: the values
of equal maps are equal, but equal values do not make equal maps if numbers of both kinds meet. -/
theorem equal_containers_iff (items items' : List Value) {as bs : Vars} (has : as.keys.Nodup)
    (hbs : bs.keys.Nodup) :
    ((list items).equal (list items') = true ↔
      List.Forall₂ (fun a b => a.equal b = true) items items') ∧
    ((map as).equal (map bs) = true ↔ SameKeys as bs ∧
      Throughout (fun a b => a.equal b = true) as bs ∧
      Throughout (fun a b => ¬ Mixed a b) as bs) := by
  refine ⟨equalItems_iff, ?_⟩
  change sameVars as bs = true ↔ _
  rw [sameVars_iff has hbs]
  refine and_congr_right fun _ => ⟨fun h => ?_, fun h key a b ha hb => ?_⟩
  · exact ⟨fun key a b ha hb => (same_iff.mp (h key a b ha hb)).1,
      fun key a b ha hb => (same_iff.mp (h key a b ha hb)).2⟩
  · exact same_iff.mpr ⟨h.1 key a b ha hb, h.2 key a b ha hb⟩

/-- The keys are in another order, and the numbers in the lists are of different kinds. -/
theorem equal_containers_iff_nested :
    let items : List Value := [.int 1, .list [.float 0.5, .map [("b", .int 2)]]]
    let as : Vars := [("a", .list items), ("c", .string "x")]
    let bs : Vars := [("c", .string "x"), ("a", .list items)]
    (as.keys.Nodup ∧ bs.keys.Nodup) ∧ (SameKeys as bs ∧
      Throughout (fun a b => a.equal b = true) as bs ∧
      Throughout (fun a b => ¬ Mixed a b) as bs) ∧
    (list [.map as, .list [.float 2]]).equal (list [.map bs, .list [.int 2]]) = true := by
  intro items as bs
  have has : as.keys.Nodup := by decide
  have hbs : bs.keys.Nodup := by decide
  have hequal : (map as).equal (map bs) = true := by decide +kernel
  have hinner : (list [.float 2]).equal (list [.int 2]) = true := by decide +kernel
  obtain ⟨hlists, hmaps⟩ := equal_containers_iff [.map as, .list [.float 2]]
    [.map bs, .list [.int 2]] has hbs
  exact ⟨⟨has, hbs⟩, hmaps.mp hequal, hlists.mpr (.cons hequal (.cons hinner .nil))⟩

/-- These maps have the same key, bound to equal values, and yet are not equal. -/
theorem equal_values_unequal_maps :
    let as : Vars := [("k", .int 1)]
    let bs : Vars := [("k", .float 1)]
    SameKeys as bs ∧ Throughout (fun a b => a.equal b = true) as bs ∧
      (map as).equal (map bs) = false := by
  intro as bs
  refine ⟨fun key => Iff.rfl, fun key a b ha hb => ?_, by decide +kernel⟩
  obtain ⟨-, rfl⟩ : key = "k" ∧ a = .int 1 := by simpa [as] using Dict.mem_of_get? ha
  obtain ⟨-, rfl⟩ : key = "k" ∧ b = .float 1 := by simpa [bs] using Dict.mem_of_get? hb
  decide +kernel

end PlaybookRunner.Value
