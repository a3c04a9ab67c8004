/-!
# Ordered dictionaries

A dictionary is a list of pairs in which no key occurs twice. A new key is
added at the end; a key that is bound again keeps its place.
-/

namespace PlaybookRunner

/-- A dictionary with text keys, in the order in which the keys first came. -/
abbrev Dict (α : Type) := List (String × α)

namespace Dict

variable {α β : Type}

/-- The value of a key. -/
def get? (d : Dict α) (key : String) : Option α := List.lookup key d

/-- A key is bound. -/
def has (d : Dict α) (key : String) : Bool := (d.get? key).isSome

/-- Binds a key, in its old place if it has one and at the end otherwise. -/
def put : Dict α → String → α → Dict α
  | [], key, value => [(key, value)]
  | (k, v) :: rest, key, value =>
    if k = key then (k, value) :: rest else (k, v) :: put rest key value

/-- Binds the pairs of a list one after the other. -/
def extend (d : Dict α) (pairs : List (String × α)) : Dict α :=
  pairs.foldl (fun d (key, value) => d.put key value) d

/-- The dictionary of a list of pairs, a later pair winning. -/
def ofPairs (pairs : List (String × α)) : Dict α := extend [] pairs

/-- The keys in order. -/
def keys (d : Dict α) : List String := d.map Prod.fst

/-- Applies a function to every value. -/
def mapValues (f : α → β) (d : Dict α) : Dict β := d.map fun (key, value) => (key, f value)

/-- Binds a key in a dictionary kept in ascending order of its keys. -/
def putSorted : Dict α → String → α → Dict α
  | [], key, value => [(key, value)]
  | (k, v) :: rest, key, value =>
    if key = k then (k, value) :: rest
    else if key < k then (key, value) :: (k, v) :: rest
    else (k, v) :: putSorted rest key value

/-- The same bindings in ascending order of the keys, a later pair winning. -/
def sorted (pairs : List (String × α)) : Dict α :=
  pairs.foldl (fun d (key, value) => d.putSorted key value) []

theorem get?_put_self (d : Dict α) (key : String) (value : α) :
    (d.put key value).get? key = some value := by
  induction d with
  | nil => simp [put, get?]
  | cons p rest ih =>
    obtain ⟨k, v⟩ := p
    by_cases h : k = key
    · simp [put, get?, h]
    · have hk : (key == k) = false := by simpa using fun e => h e.symm
      simpa [put, get?, h, List.lookup_cons, hk] using ih

theorem get?_put_of_ne (d : Dict α) {key other : String} (value : α) (h : other ≠ key) :
    (d.put key value).get? other = d.get? other := by
  induction d with
  | nil =>
    have : (other == key) = false := by simpa using h
    simp [put, get?, List.lookup_cons, this]
  | cons p rest ih =>
    obtain ⟨k, v⟩ := p
    by_cases hp : k = key
    · have : (other == k) = false := by simpa [hp] using h
      simp [put, get?, hp, List.lookup_cons, hp ▸ this]
    · simp only [put, hp, if_false, get?, List.lookup_cons]
      cases other == k with
      | true => rfl
      | false => simpa [get?] using ih

theorem mem_keys_put {d : Dict α} {key other : String} {value : α} :
    other ∈ (d.put key value).keys ↔ other ∈ d.keys ∨ other = key := by
  induction d with
  | nil => simp [put, keys]
  | cons p rest ih =>
    obtain ⟨k, v⟩ := p
    simp only [keys] at ih ⊢
    by_cases hp : k = key
    · subst hp
      simp only [put, if_true, List.map_cons, List.mem_cons]
      rw [or_right_comm, or_self]
    · simp only [put, if_neg hp, List.map_cons, List.mem_cons]
      rw [ih, or_assoc]

theorem mem_put {d : Dict α} {key : String} {value : α} {e : String × α}
    (h : e ∈ d.put key value) : e ∈ d ∨ e = (key, value) := by
  induction d with
  | nil => exact .inr (List.mem_singleton.mp h)
  | cons p rest ih =>
    obtain ⟨k, v⟩ := p
    by_cases hk : k = key
    · rw [put, if_pos hk] at h
      rcases List.mem_cons.mp h with rfl | h
      · exact .inr (by rw [hk])
      · exact .inl (List.mem_cons_of_mem _ h)
    · rw [put, if_neg hk] at h
      rcases List.mem_cons.mp h with rfl | h
      · exact .inl List.mem_cons_self
      · exact (ih h).imp_left (List.mem_cons_of_mem _)

theorem nodup_put {d : Dict α} (h : d.keys.Nodup) (key : String) (value : α) :
    (d.put key value).keys.Nodup := by
  induction d with
  | nil => simp [put, keys]
  | cons p rest ih =>
    obtain ⟨k, v⟩ := p
    obtain ⟨hk, hrest⟩ := List.nodup_cons.mp h
    simp only [put]
    split
    next => exact List.nodup_cons.mpr ⟨hk, hrest⟩
    next hne =>
      refine List.nodup_cons.mpr ⟨fun hmem => ?_, ih hrest⟩
      rcases mem_keys_put.mp hmem with hmem | heq
      · exact hk hmem
      · exact hne heq

theorem nodup_extend {d : Dict α} (h : d.keys.Nodup) (pairs : List (String × α)) :
    (d.extend pairs).keys.Nodup := by
  unfold extend
  induction pairs generalizing d with
  | nil => exact h
  | cons p rest ih => exact ih (nodup_put h p.1 p.2)

theorem nodup_ofPairs (pairs : List (String × α)) : (ofPairs pairs).keys.Nodup :=
  nodup_extend (d := []) List.nodup_nil pairs

theorem get?_eq_none {d : Dict α} {key : String} (h : key ∉ d.keys) : d.get? key = none := by
  refine List.lookup_eq_none_iff.mpr fun p hp => ?_
  have hne : key ≠ p.1 := fun e => h (e ▸ List.mem_map_of_mem hp)
  simpa using hne

/-- What extends a dictionary precedes what was there. -/
theorem get?_extend {pairs : Dict α} (h : pairs.keys.Nodup) (d : Dict α) (key : String) :
    (d.extend pairs).get? key = (pairs.get? key).or (d.get? key) := by
  unfold extend
  induction pairs generalizing d with
  | nil => rfl
  | cons p rest ih =>
    obtain ⟨k, v⟩ := p
    obtain ⟨hk, hrest⟩ := List.nodup_cons.mp h
    rw [List.foldl_cons, ih hrest]
    by_cases hkey : key = k
    · subst hkey
      rw [get?_eq_none hk, get?_put_self, Option.none_or]
      simp [get?]
    · have hbeq : (key == k) = false := by simpa using hkey
      rw [get?_put_of_ne _ _ hkey]
      simp [get?, List.lookup_cons, hbeq]

theorem get?_of_mem {d : Dict α} (h : d.keys.Nodup) {key : String} {value : α}
    (hmem : (key, value) ∈ d) : d.get? key = some value := by
  induction d with
  | nil => cases hmem
  | cons p rest ih =>
    obtain ⟨k, v⟩ := p
    obtain ⟨hk, hrest⟩ := List.nodup_cons.mp h
    rcases List.mem_cons.mp hmem with heq | hmem
    · cases heq
      simp [get?]
    · have hne : key ≠ k := fun e => hk (List.mem_map.mpr ⟨_, hmem, e⟩)
      have hbeq : (key == k) = false := by simpa using hne
      simpa [get?, List.lookup_cons, hbeq] using ih hrest hmem

theorem mem_of_get? {d : Dict α} {key : String} {value : α} (h : d.get? key = some value) :
    (key, value) ∈ d := by
  obtain ⟨before, after, rfl, -⟩ := List.lookup_eq_some_iff.mp h
  simp

theorem put_of_notMem {d : Dict α} {key : String} (h : key ∉ d.keys) (value : α) :
    d.put key value = d ++ [(key, value)] := by
  induction d with
  | nil => rfl
  | cons p rest ih =>
    obtain ⟨k, v⟩ := p
    simp only [keys, List.map_cons, List.mem_cons, not_or] at h
    obtain ⟨hne, hrest⟩ := h
    rw [put, if_neg (Ne.symm hne), ih hrest]
    rfl

theorem notMem_keys_of_nodup {d rest : Dict α} {key : String} {value : α}
    (h : (d ++ (key, value) :: rest).keys.Nodup) : key ∉ d.keys := by
  simp only [keys, List.map_append, List.map_cons, List.nodup_append] at h
  exact fun hmem => h.2.2 key hmem key List.mem_cons_self rfl

theorem extend_of_nodup {d pairs : Dict α} (h : (d ++ pairs).keys.Nodup) :
    d.extend pairs = d ++ pairs := by
  unfold extend
  induction pairs generalizing d with
  | nil => simp
  | cons p rest ih =>
    obtain ⟨k, v⟩ := p
    have hput : d.put k v = d ++ [(k, v)] := put_of_notMem (notMem_keys_of_nodup h) v
    rw [List.foldl_cons]
    dsimp only
    rw [hput, ih (by simpa using h), List.append_assoc]
    rfl

/-- Pairs with distinct keys are a dictionary as they are. -/
theorem ofPairs_of_nodup {pairs : Dict α} (h : pairs.keys.Nodup) : ofPairs pairs = pairs :=
  extend_of_nodup (d := []) h

theorem putSorted_perm {d : Dict α} {key : String} (h : key ∉ d.keys) (value : α) :
    (d.putSorted key value).Perm ((key, value) :: d) := by
  induction d with
  | nil => exact .refl _
  | cons p rest ih =>
    obtain ⟨k, v⟩ := p
    simp only [keys, List.map_cons, List.mem_cons, not_or] at h
    obtain ⟨hne, hrest⟩ := h
    rw [putSorted, if_neg hne]
    split
    · exact .refl _
    · exact ((ih hrest).cons (k, v)).trans (.swap _ _ _)

theorem foldl_putSorted_perm {d pairs : Dict α} (h : (d ++ pairs).keys.Nodup) :
    (pairs.foldl (fun d (key, value) => d.putSorted key value) d).Perm (d ++ pairs) := by
  induction pairs generalizing d with
  | nil => simp
  | cons p rest ih =>
    obtain ⟨k, v⟩ := p
    have hput : (d.putSorted k v ++ rest).Perm (d ++ (k, v) :: rest) :=
      ((putSorted_perm (notMem_keys_of_nodup h) v).append_right rest).trans List.perm_middle.symm
    exact (ih ((hput.map Prod.fst).nodup_iff.mpr h)).trans hput

/-- Sorting moves the pairs of a dictionary and keeps them all. -/
theorem sorted_perm {pairs : Dict α} (h : pairs.keys.Nodup) : (sorted pairs).Perm pairs :=
  foldl_putSorted_perm (d := []) h

theorem nodup_of_perm {d d' : Dict α} (h : d.Perm d') (hd : d'.keys.Nodup) : d.keys.Nodup :=
  (h.map Prod.fst).nodup_iff.mpr hd

end Dict

end PlaybookRunner
