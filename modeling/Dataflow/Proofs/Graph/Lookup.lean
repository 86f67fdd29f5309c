import Dataflow.Graph.Register
import Mathlib.Data.List.Nodup

/-!
# Lookups and scans

A graph looks up transforms and ports through its tables, from a key to a slot and from the slot to
the transform.  Beside that stands the plain scan of the list.  The two agree as long as the table
is an **index** of the list (`Table.Indexes`): it leads from a key to a slot exactly when the entry
in that slot has the key.

Slots are kept as identities, which tell apart 4294967295 places only.  Being an index does not
depend on that limit, but reading a slot back does (`ofCounter_inj`), so the lookups agree with the
scan for lists up to the limit (`Table.Indexes.lookup_eq_some_iff`).
-/

namespace Dataflow

theorem Ident.ofCounter_slot (k : Ident) : Ident.ofCounter k.slot = k := by
  apply Ident.ext
  have := k.slot_le
  exact Ident.slot_ofCounter_of_lt (by omega)

theorem Ident.ofCounter_inj {m n : Nat} (hm : m < 4294967295) (hn : n < 4294967295)
    (h : Ident.ofCounter m = Ident.ofCounter n) : m = n := by
  rw [← Ident.slot_ofCounter_of_lt hm, h, Ident.slot_ofCounter_of_lt hn]

namespace Table

/-! ## Indexes of a list -/

section Indexes
variable {α κ : Type} [DecidableEq κ] {table table' : Table κ Ident} {l : List α}
  {has : α → κ → Bool} {key : κ} {a : α}

/-- **The table is an index of the list**: it leads from a key to a slot exactly when the entry in
that slot has the key. -/
def Indexes (table : Table κ Ident) (l : List α) (has : α → κ → Bool) : Prop :=
  ∀ key k, table.get? key = some k ↔
    ∃ i a, l[i]? = some a ∧ has a key = true ∧ k = Ident.ofCounter i

theorem indexes_empty (has : α → κ → Bool) : (empty : Table κ Ident).Indexes [] has := by
  intro key k
  simp

theorem Indexes.contains_iff (h : table.Indexes l has) :
    table.contains key = true ↔ ∃ a ∈ l, has a key = true := by
  rw [contains_eq, Option.isSome_iff_exists]
  constructor
  · rintro ⟨k, hk⟩
    obtain ⟨i, a, hi, ha, -⟩ := (h key k).mp hk
    exact ⟨a, List.mem_of_getElem? hi, ha⟩
  · rintro ⟨a, hm, ha⟩
    obtain ⟨i, hi⟩ := List.getElem?_of_mem hm
    exact ⟨Ident.ofCounter i, (h key _).mpr ⟨i, a, hi, ha, rfl⟩⟩

omit [DecidableEq κ] in
/-- Below the limit, a slot can be read back as a place in the list. -/
theorem exists_place_iff (hl : l.length ≤ 4294967295) {k : Ident} :
    (∃ i a, l[i]? = some a ∧ has a key = true ∧ k = Ident.ofCounter i) ↔
      ∃ a, l[k.slot]? = some a ∧ has a key = true := by
  constructor
  · rintro ⟨i, a, hi, ha, rfl⟩
    obtain ⟨hlt, -⟩ := List.getElem?_eq_some_iff.mp hi
    rw [Ident.slot_ofCounter_of_lt (by omega)]
    exact ⟨a, hi, ha⟩
  · rintro ⟨a, hk, ha⟩
    exact ⟨k.slot, a, hk, ha, (Ident.ofCounter_slot k).symm⟩

/-- Below the limit, the slots of an index are the places in the list. -/
theorem indexes_iff (hl : l.length ≤ 4294967295) : table.Indexes l has ↔
    ∀ key k, table.get? key = some k ↔ ∃ a, l[k.slot]? = some a ∧ has a key = true := by
  simp only [Indexes, exists_place_iff hl]

/-- **A lookup through an index finds what a scan finds.** -/
theorem Indexes.lookup_eq_some_iff (h : table.Indexes l has) (hl : l.length ≤ 4294967295) :
    ((table.get? key).bind fun k => l[k.slot]?) = some a ↔ a ∈ l ∧ has a key = true := by
  rw [Option.bind_eq_some_iff]
  constructor
  · rintro ⟨k, hk, ha⟩
    obtain ⟨b, hb, hkey⟩ := ((indexes_iff hl).mp h key k).mp hk
    obtain rfl : a = b := Option.some.inj (ha.symm.trans hb)
    exact ⟨List.mem_of_getElem? ha, hkey⟩
  · rintro ⟨hm, hkey⟩
    obtain ⟨i, hi⟩ := List.getElem?_of_mem hm
    obtain ⟨hlt, -⟩ := List.getElem?_eq_some_iff.mp hi
    refine ⟨Ident.ofCounter i, (h key _).mpr ⟨i, a, hi, hkey, rfl⟩, ?_⟩
    rw [Ident.slot_ofCounter_of_lt (by omega)]
    exact hi

/-- A key of an index belongs to one entry only. -/
theorem Indexes.place_unique (h : table.Indexes l has) (hl : l.length ≤ 4294967295) {i j : Nat}
    {b : α} (hi : l[i]? = some a) (hj : l[j]? = some b) (ha : has a key = true)
    (hb : has b key = true) : i = j := by
  have hki := (h key _).mpr ⟨i, a, hi, ha, rfl⟩
  have hkj := (h key _).mpr ⟨j, b, hj, hb, rfl⟩
  obtain ⟨hlti, -⟩ := List.getElem?_eq_some_iff.mp hi
  obtain ⟨hltj, -⟩ := List.getElem?_eq_some_iff.mp hj
  exact Ident.ofCounter_inj (by omega) (by omega) (Option.some.inj (hki.symm.trans hkj))

/-- **An index grows with its list**, if the new keys are entered under the next slot and none of
them is a key of an old entry. -/
theorem Indexes.append (h : table.Indexes l has)
    (hget : ∀ key, table'.get? key =
      if has a key then some (Ident.ofCounter l.length) else table.get? key)
    (hnew : ∀ b ∈ l, ∀ key, has a key = true → has b key ≠ true) :
    table'.Indexes (l ++ [a]) has := by
  intro key k
  rw [hget key]
  constructor
  · intro hk
    split at hk
    · rename_i ha
      exact ⟨l.length, a, List.getElem?_concat_length, ha, (Option.some.inj hk).symm⟩
    · obtain ⟨i, b, hi, hb, rfl⟩ := (h key k).mp hk
      obtain ⟨hlt, -⟩ := List.getElem?_eq_some_iff.mp hi
      exact ⟨i, b, (List.getElem?_append_left hlt).trans hi, hb, rfl⟩
  · rintro ⟨i, b, hi, hb, rfl⟩
    -- an old place keeps its keys, and the only new place is the next slot
    rcases Nat.lt_or_ge i l.length with hlt | hge
    · rw [List.getElem?_append_left hlt] at hi
      have hna : has a key ≠ true := fun ha => hnew b (List.mem_of_getElem? hi) key ha hb
      rw [if_neg hna]
      exact (h key _).mpr ⟨i, b, hi, hb, rfl⟩
    · rw [List.getElem?_append_right hge] at hi
      obtain ⟨hlt, rfl⟩ := List.getElem?_eq_some_iff.mp hi
      have hil : i = l.length := by
        rw [List.length_singleton] at hlt
        omega
      simp only [List.getElem_singleton] at hb
      rw [if_pos hb, hil]

end Indexes

end Table

/-! ## Entries with a key of their own -/

section Keys
variable {α κ : Type} {l : List α} {key : α → κ} (hl : (l.map key).Nodup)
include hl

/-- Two places with the same key are one. -/
theorem place_eq_of_key_eq {i j : Nat} {a b : α} (hi : l[i]? = some a) (hj : l[j]? = some b)
    (h : key a = key b) : i = j := by
  obtain ⟨hlt, -⟩ := List.getElem?_eq_some_iff.mp hi
  refine (List.getElem?_inj (by rwa [List.length_map]) hl).mp ?_
  rw [List.getElem?_map, List.getElem?_map, hi, hj, Option.map_some, Option.map_some, h]

/-- **The first entry of a key is the only one.** -/
theorem find?_key_eq_some_iff [DecidableEq κ] {k : κ} {a : α} :
    l.find? (fun b => key b = k) = some a ↔ a ∈ l ∧ key a = k := by
  constructor
  · intro h
    exact ⟨List.mem_of_find?_eq_some h, by simpa using List.find?_some h⟩
  · rintro ⟨ha, rfl⟩
    obtain ⟨b, hb⟩ : ∃ b, l.find? (fun b => key b = key a) = some b := by
      apply Option.isSome_iff_exists.mp
      exact List.find?_isSome.mpr ⟨a, ha, by simp⟩
    have hkey : key b = key a := by simpa using List.find?_some hb
    rw [hb, List.inj_on_of_nodup_map hl (List.mem_of_find?_eq_some hb) ha hkey]

end Keys

/-! ## Ports of a transform -/

namespace Transform

/-- Among ports with pairwise different identities, the identity finds the port. -/
theorem portWithId?_eq_some_iff {t : Transform} (ht : (t.ports.map (·.id)).Nodup) {v : Ident}
    {p : Port} : t.portWithId? v = some p ↔ p ∈ t.ports ∧ p.id = v :=
  find?_key_eq_some_iff ht

end Transform

/-! ## Lookups in a graph -/

namespace Graph
variable {g : Graph} {v : Ident}

/-- One of the registered transforms owns the port of this identity. -/
def Owns (g : Graph) (v : Ident) : Prop := ∃ t ∈ g.transforms, t.hasId v = true

theorem owner?_eq_some_iff (h : g.parents.Indexes g.transforms Transform.hasId)
    (hl : g.transforms.length ≤ 4294967295) {t : Transform} :
    g.owner? v = some t ↔ t ∈ g.transforms ∧ t.hasId v = true :=
  h.lookup_eq_some_iff hl

theorem mem_transforms_of_owner? {t : Transform} (h : g.owner? v = some t) : t ∈ g.transforms := by
  obtain ⟨k, -, hk⟩ := Option.bind_eq_some_iff.mp h
  exact List.mem_of_getElem? hk

theorem mem_transforms_of_transform? {name : String} {t : Transform}
    (h : g.transform? name = some t) : t ∈ g.transforms := by
  obtain ⟨k, -, hk⟩ := Option.bind_eq_some_iff.mp h
  exact List.mem_of_getElem? hk

theorem transform?_eq_some_iff
    (h : g.slots.Indexes g.transforms fun t name => decide (t.name = name))
    (hl : g.transforms.length ≤ 4294967295) {name : String} {t : Transform} :
    g.transform? name = some t ↔ t ∈ g.transforms ∧ t.name = name := by
  rw [← decide_eq_true_iff (p := t.name = name)]
  exact h.lookup_eq_some_iff hl

/-- A registered port is found, and nothing else is. -/
theorem port?_eq_some_iff (h : g.parents.Indexes g.transforms Transform.hasId)
    (hl : g.transforms.length ≤ 4294967295)
    (hids : ∀ t ∈ g.transforms, (t.ports.map (·.id)).Nodup) {p : Port} :
    g.port? v = some p ↔ ∃ t ∈ g.transforms, p ∈ t.ports ∧ p.id = v := by
  unfold port?
  rw [Option.bind_eq_some_iff]
  constructor
  · rintro ⟨t, ht, hp⟩
    obtain ⟨hm, -⟩ := (owner?_eq_some_iff h hl).mp ht
    exact ⟨t, hm, (Transform.portWithId?_eq_some_iff (hids t hm)).mp hp⟩
  · rintro ⟨t, hm, hp, hv⟩
    exact ⟨t, (owner?_eq_some_iff h hl).mpr ⟨hm, Transform.hasId_iff.mpr ⟨p, hp, hv⟩⟩,
      (Transform.portWithId?_eq_some_iff (hids t hm)).mpr ⟨hp, hv⟩⟩

theorem ownerOfId_eq_ok_iff {t : Transform} : g.ownerOfId v = .ok t ↔ g.owner? v = some t := by
  unfold ownerOfId
  cases g.owner? v <;> simp

theorem ownerOfId_of_owner?_eq_none (h : g.owner? v = none) :
    g.ownerOfId v = .error (.notFound (.ownerOfIdent v)) := by
  unfold ownerOfId
  rw [h]

/-- An edge is registered exactly when both ends are in the parent index. -/
theorem ownerlessEnd?_eq_none_iff {e : Edge} : g.ownerlessEnd? e = none ↔
    g.parents.contains e.source = true ∧ g.parents.contains e.destination = true := by
  unfold ownerlessEnd?
  cases g.parents.contains e.source <;> cases g.parents.contains e.destination <;> simp

/-- **What registering an edge answers**, in terms of a scan: the source is looked at first. -/
theorem addEdge_result (h : g.parents.Indexes g.transforms Transform.hasId) (e : Edge) :
    (g.Owns e.source → g.Owns e.destination → (g.addEdge e).result = .ok ()) ∧
    (¬ g.Owns e.source →
      (g.addEdge e).result = .error (.danglingReference .source e.source g.name)) ∧
    (g.Owns e.source → ¬ g.Owns e.destination →
      (g.addEdge e).result = .error (.danglingReference .destination e.destination g.name)) := by
  unfold Owns
  rw [← h.contains_iff, ← h.contains_iff]
  refine ⟨fun hs hd => ?_, fun hs => ?_, fun hs hd => ?_⟩
  · simp [addEdge, ownerlessEnd?, hs, hd]
  · simp [addEdge, ownerlessEnd?, hs]
  · simp [addEdge, ownerlessEnd?, hs, hd]

/-- **An edge is registered exactly when both its ends have an owner.** -/
theorem addEdge_eq_ok_iff (h : g.parents.Indexes g.transforms Transform.hasId) {e : Edge} :
    (g.addEdge e).result = .ok () ↔ g.Owns e.source ∧ g.Owns e.destination := by
  obtain ⟨hok, hsrc, hdst⟩ := addEdge_result h e
  constructor
  · intro hresult
    by_cases hs : g.Owns e.source
    · by_cases hd : g.Owns e.destination
      · exact ⟨hs, hd⟩
      · rw [hdst hs hd] at hresult
        cases hresult
    · rw [hsrc hs] at hresult
      cases hresult
  · rintro ⟨hs, hd⟩
    exact hok hs hd

end Graph

end Dataflow
