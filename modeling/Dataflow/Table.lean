/-!
# Finite tables

A `Table κ ν` maps finitely many keys to values.  It is a list of entries in which no key occurs
twice; writing to a key that is there replaces its value, so the number of entries is the number
of keys.

Reading is determined by the last write: `get?_insert`, `get?_keep`, `get?_erase` and `get?_empty`
say what every operation does to `get?`, and `size_insert` what a write does to the number of
entries.
-/

namespace Dataflow

/-- A finite map, kept as entries with pairwise different keys. -/
structure Table (κ ν : Type) where
  /-- The entries, in the order in which their keys were first written. -/
  entries : List (κ × ν)
  nodup : (entries.map Prod.fst).Nodup

namespace Table

variable {κ ν : Type}

/-- The table without entries. -/
def empty : Table κ ν := ⟨[], List.nodup_nil⟩

instance : EmptyCollection (Table κ ν) := ⟨empty⟩

/-- The number of keys. -/
def size (t : Table κ ν) : Nat := t.entries.length

/-- The table has no entry. -/
def isEmpty (t : Table κ ν) : Bool := t.entries.isEmpty

/-- The keys, in the order in which they were first written. -/
def keys (t : Table κ ν) : List κ := t.entries.map Prod.fst

theorem nodup_keys (t : Table κ ν) : t.keys.Nodup := t.nodup

theorem length_keys (t : Table κ ν) : t.keys.length = t.size := List.length_map _

theorem eq_of_entries {t t' : Table κ ν} (h : t.entries = t'.entries) : t = t' := by
  cases t
  cases t'
  cases h
  rfl

/-- The entries whose keys pass the test. -/
def keep (t : Table κ ν) (p : κ → Bool) : Table κ ν :=
  ⟨t.entries.filter fun entry => p entry.1,
    t.nodup.sublist (List.filter_sublist.map Prod.fst)⟩

variable [DecidableEq κ]

/-! ## Entry lists -/

/-- The value that stands beside the key. -/
def valueIn (k : κ) : List (κ × ν) → Option ν
  | [] => none
  | (k', v) :: rest => if k' = k then some v else valueIn k rest

/-- The entries with the key's value replaced, or with a new last entry. -/
def write (k : κ) (v : ν) : List (κ × ν) → List (κ × ν)
  | [] => [(k, v)]
  | (k', v') :: rest => if k' = k then (k, v) :: rest else (k', v') :: write k v rest

theorem mem_keys_write {k k' : κ} {v : ν} {entries : List (κ × ν)} :
    k' ∈ (write k v entries).map Prod.fst ↔ k' = k ∨ k' ∈ entries.map Prod.fst := by
  induction entries with
  | nil => simp [write]
  | cons entry rest ih =>
    obtain ⟨k₁, v₁⟩ := entry
    by_cases h : k₁ = k
    · subst h; simp [write]
    · simp only [write, h, if_false, List.map_cons, List.mem_cons, ih]
      grind

theorem nodup_write {k : κ} {v : ν} {entries : List (κ × ν)}
    (h : (entries.map Prod.fst).Nodup) : ((write k v entries).map Prod.fst).Nodup := by
  induction entries with
  | nil => simp [write]
  | cons entry rest ih =>
    obtain ⟨k₁, v₁⟩ := entry
    rw [List.map_cons, List.nodup_cons] at h
    by_cases hk : k₁ = k
    · subst hk; simpa [write] using h
    · simp only [write, hk, if_false, List.map_cons, List.nodup_cons]
      refine ⟨fun hm => ?_, ih h.2⟩
      rcases mem_keys_write.1 hm with h' | h'
      · exact hk h'
      · exact h.1 h'

theorem valueIn_write (k k' : κ) (v : ν) (entries : List (κ × ν)) :
    valueIn k' (write k v entries) = if k = k' then some v else valueIn k' entries := by
  induction entries with
  | nil => simp [write, valueIn]
  | cons entry rest ih => grind [write, valueIn]

theorem valueIn_filter (p : κ → Bool) (k : κ) (entries : List (κ × ν)) :
    valueIn k (entries.filter fun entry => p entry.1) =
      if p k then valueIn k entries else none := by
  induction entries with
  | nil => simp [valueIn]
  | cons entry rest ih => grind [valueIn]

/-- A write to a key that does not pass the test is not seen afterwards. -/
theorem filter_write {p : κ → Bool} {k : κ} (h : p k = false) (v : ν) (entries : List (κ × ν)) :
    ((write k v entries).filter fun entry => p entry.1) =
      entries.filter fun entry => p entry.1 := by
  induction entries with
  | nil => simp [write, h]
  | cons entry rest ih => grind [write]

/-- Writing what is there already changes nothing. -/
theorem write_of_valueIn {k : κ} {v : ν} {entries : List (κ × ν)} (h : valueIn k entries = some v) :
    write k v entries = entries := by
  induction entries with
  | nil => cases h
  | cons entry rest ih => grind [valueIn, write]

theorem length_write (k : κ) (v : ν) (entries : List (κ × ν)) :
    (write k v entries).length =
      entries.length + if (valueIn k entries).isSome then 0 else 1 := by
  induction entries with
  | nil => simp [write, valueIn]
  | cons entry rest ih =>
    obtain ⟨k₁, v₁⟩ := entry
    by_cases hk : k₁ = k
    · simp [write, valueIn, hk]
    · simp only [write, valueIn, hk, if_false, List.length_cons, ih]
      omega

theorem mem_of_valueIn {k : κ} {v : ν} {entries : List (κ × ν)} (h : valueIn k entries = some v) :
    (k, v) ∈ entries := by
  induction entries with
  | nil => cases h
  | cons entry rest ih => grind [valueIn]

theorem valueIn_of_mem {k : κ} {v : ν} {entries : List (κ × ν)}
    (hn : (entries.map Prod.fst).Nodup) (h : (k, v) ∈ entries) : valueIn k entries = some v := by
  induction entries with
  | nil => cases h
  | cons entry rest ih =>
    obtain ⟨k₁, v₁⟩ := entry
    rw [List.map_cons, List.nodup_cons] at hn
    rcases List.mem_cons.mp h with heq | hrest
    · cases heq
      simp [valueIn]
    · have hne : k₁ ≠ k := fun he => hn.1 (he ▸ List.mem_map.mpr ⟨(k, v), hrest, rfl⟩)
      simp only [valueIn, hne, if_false]
      exact ih hn.2 hrest

/-! ## Operations -/

/-- The value of a key. -/
def get? (t : Table κ ν) (k : κ) : Option ν := valueIn k t.entries

/-- The key has a value. -/
def contains (t : Table κ ν) (k : κ) : Bool := (t.get? k).isSome

/-- Gives the key this value, whatever it had before. -/
def insert (t : Table κ ν) (k : κ) (v : ν) : Table κ ν :=
  ⟨write k v t.entries, nodup_write t.nodup⟩

/-- Takes the key and its value out. -/
def erase (t : Table κ ν) (k : κ) : Table κ ν := t.keep fun k' => k' ≠ k

theorem get?_eq_some_iff {t : Table κ ν} {k : κ} {v : ν} :
    t.get? k = some v ↔ (k, v) ∈ t.entries :=
  ⟨mem_of_valueIn, valueIn_of_mem t.nodup⟩

theorem mem_keys_iff {t : Table κ ν} {k : κ} : k ∈ t.keys ↔ ∃ v, t.get? k = some v := by
  simp [keys, get?_eq_some_iff]

@[simp] theorem get?_empty (k : κ) : (empty : Table κ ν).get? k = none := rfl

theorem get?_insert (t : Table κ ν) (k k' : κ) (v : ν) :
    (t.insert k v).get? k' = if k = k' then some v else t.get? k' :=
  valueIn_write k k' v t.entries

@[simp] theorem get?_insert_self (t : Table κ ν) (k : κ) (v : ν) :
    (t.insert k v).get? k = some v := by
  simp [get?_insert]

theorem get?_insert_of_ne (t : Table κ ν) {k k' : κ} (v : ν) (h : k ≠ k') :
    (t.insert k v).get? k' = t.get? k' := by
  simp [get?_insert, h]

theorem insert_of_get? {t : Table κ ν} {k : κ} {v : ν} (h : t.get? k = some v) :
    t.insert k v = t :=
  eq_of_entries (write_of_valueIn h)

theorem get?_keep (t : Table κ ν) (p : κ → Bool) (k : κ) :
    (t.keep p).get? k = if p k then t.get? k else none :=
  valueIn_filter p k t.entries

theorem keep_insert (t : Table κ ν) {p : κ → Bool} {k : κ} (h : p k = false) (v : ν) :
    (t.insert k v).keep p = t.keep p :=
  eq_of_entries (filter_write h v t.entries)

theorem keep_eq_self {t : Table κ ν} {p : κ → Bool} (h : ∀ k v, t.get? k = some v → p k = true) :
    t.keep p = t :=
  eq_of_entries <| List.filter_eq_self.mpr fun entry hmem =>
    h entry.1 entry.2 (get?_eq_some_iff.mpr hmem)

theorem get?_erase (t : Table κ ν) (k k' : κ) :
    (t.erase k).get? k' = if k = k' then none else t.get? k' := by
  rw [erase, get?_keep]
  by_cases h : k = k'
  · simp [h]
  · simp [h, Ne.symm h]

@[simp] theorem contains_empty (k : κ) : (empty : Table κ ν).contains k = false := rfl

theorem contains_eq (t : Table κ ν) (k : κ) : t.contains k = (t.get? k).isSome := rfl

theorem size_insert (t : Table κ ν) (k : κ) (v : ν) :
    (t.insert k v).size = t.size + if t.contains k then 0 else 1 :=
  length_write k v t.entries

omit [DecidableEq κ] in
@[simp] theorem size_empty : (empty : Table κ ν).size = 0 := rfl

end Table

end Dataflow
