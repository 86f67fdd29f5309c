import Dataflow.Proofs.Session.Cells
import Dataflow.Proofs.Store.Resolution
import Mathlib.Algebra.Group.Nat.Defs
import Mathlib.Order.Bounds.Basic

/-!
# The depth of the buffer in the stream design

The filter of the stream design has a buffer, and the depth of the buffer is computed from profiling
records: the least power of two that holds the longest run, or the largest 32-bit number if that power
does not fit.

Three things come together here.  The largest number of cycles is a least upper bound
(`Profile.maxCycles_le_iff`), and this alone says that neither the order of the records nor their
repetition matters.  Doubling stops at the first power of two that is large enough
(`isLeast_nextPowerOfTwo`), and the limit of 32 bits cuts off exactly the powers beyond `2 ^ 31`
(`powerOfTwoDepth_of_gt`).  And whatever a workshop has made before, the design binds the constant of
its filter to this measure (`Design.exists_fifoDepth`).  So the text of the constant is a tight depth for
every list of records, and there is none for the empty list (`Design.fifoDepth_tight`).
-/

namespace Dataflow

/-! ## The largest number of cycles -/

/-- A running maximum is a least upper bound. -/
theorem foldl_max_le_iff {ns : List Nat} {a m : Nat} :
    ns.foldl max a ≤ m ↔ a ≤ m ∧ ∀ n ∈ ns, n ≤ m := by
  induction ns generalizing a with
  | nil => simp
  | cons n rest ih => rw [List.foldl_cons, ih, Nat.max_le, List.forall_mem_cons, and_assoc]

namespace Profile

/-- The numbers of cycles that occur in the records. -/
def cycleCounts (records : List Profile) : Set Nat := {n | ∃ r ∈ records, r.cycles.toNat = n}

/-- The depth of a buffer for these records. -/
def depth (records : List Profile) : Nat := powerOfTwoDepth (maxCycles records)

section MaxCycles
variable {records records' : List Profile} {m : Nat}

theorem maxCycles_le_iff : maxCycles records ≤ m ↔ ∀ n ∈ cycleCounts records, n ≤ m := by
  unfold maxCycles column
  rw [foldl_max_le_iff, List.forall_mem_map]
  constructor
  · rintro ⟨-, h⟩ n ⟨r, hr, rfl⟩
    exact h r hr
  · exact fun h => ⟨Nat.zero_le m, fun r hr => h _ ⟨r, hr, rfl⟩⟩

theorem le_maxCycles {n : Nat} (h : n ∈ cycleCounts records) : n ≤ maxCycles records :=
  maxCycles_le_iff.mp (Nat.le_refl _) n h

theorem maxCycles_mono (h : cycleCounts records ⊆ cycleCounts records') :
    maxCycles records ≤ maxCycles records' :=
  maxCycles_le_iff.mpr fun _ hn => le_maxCycles (h hn)

/-- **The largest number of cycles occurs in the records.** -/
theorem isGreatest_maxCycles (h : records ≠ []) :
    IsGreatest (cycleCounts records) (maxCycles records) := by
  refine ⟨Classical.byContradiction fun hnot => ?_, fun _ hn => le_maxCycles hn⟩
  -- otherwise a smaller number would be an upper bound as well
  have hlt : ∀ n ∈ cycleCounts records, n < maxCycles records := fun n hn =>
    Nat.lt_of_le_of_ne (le_maxCycles hn) fun heq => hnot (heq ▸ hn)
  have hle : maxCycles records ≤ maxCycles records - 1 :=
    maxCycles_le_iff.mpr fun n hn => Nat.le_sub_one_of_lt (hlt n hn)
  obtain ⟨r, hr⟩ := List.exists_mem_of_ne_nil records h
  have hpos := hlt _ ⟨r, hr, rfl⟩
  omega

/-- Every number of cycles fits 32 bits. -/
theorem maxCycles_le (records : List Profile) : maxCycles records ≤ 4294967295 := by
  refine maxCycles_le_iff.mpr ?_
  rintro n ⟨r, -, rfl⟩
  exact Nat.le_of_lt_succ r.cycles.toNat_lt

end MaxCycles

end Profile

/-! ## Powers of two -/

-- the loop that `Nat.nextPowerOfTwo` starts at one
open private Nat.nextPowerOfTwo.go from Init.Data.Nat.Power2.Basic

/-- Between two powers of two there is room for doubling. -/
theorem mul_two_le_of_isPowerOfTwo {p d : Nat} (hp : p.isPowerOfTwo) (hd : d.isPowerOfTwo)
    (h : p < d) : p * 2 ≤ d := by
  obtain ⟨i, rfl⟩ := hp
  obtain ⟨j, rfl⟩ := hd
  rw [← Nat.pow_succ]
  exact Nat.pow_le_pow_right (by decide) ((Nat.pow_lt_pow_iff_right (by decide)).mp h)

/-- Doubling a power of two that is not beyond the ones that are large enough leads to the least of
these. -/
theorem isLeast_go (n p : Nat) (h : p > 0) (hp : p.isPowerOfTwo)
    (hle : ∀ d, max n 1 ≤ d → d.isPowerOfTwo → p ≤ d) :
    IsLeast {d | max n 1 ≤ d ∧ d.isPowerOfTwo} (Nat.nextPowerOfTwo.go n p h) := by
  fun_induction Nat.nextPowerOfTwo.go n p h with
  | case1 p h hlt ih =>
    refine ih (Nat.isPowerOfTwo_mul_two_of_isPowerOfTwo hp) fun d hd hpow => ?_
    exact mul_two_le_of_isPowerOfTwo hp hpow (by omega)
  | case2 p h hge =>
    exact ⟨⟨by omega, hp⟩, fun d hd => hle d hd.1 hd.2⟩

/-- **The next power of two is the least one that is no smaller.** -/
theorem isLeast_nextPowerOfTwo (n : Nat) :
    IsLeast {d | max n 1 ≤ d ∧ d.isPowerOfTwo} n.nextPowerOfTwo :=
  isLeast_go n 1 Nat.one_pos Nat.isPowerOfTwo_one fun _ hd _ => by omega

section Depth
variable {m n : Nat}

theorem powerOfTwoDepth_of_le (h : n ≤ 2 ^ 31) :
    IsLeast {d | max n 1 ≤ d ∧ d.isPowerOfTwo} (powerOfTwoDepth n) := by
  have hleast := isLeast_nextPowerOfTwo n
  have hle : n.nextPowerOfTwo ≤ 2 ^ 31 := hleast.2 ⟨by omega, 31, rfl⟩
  rw [powerOfTwoDepth, if_pos (by omega)]
  exact hleast

/-- The power of two after `2 ^ 31` does not fit 32 bits. -/
theorem powerOfTwoDepth_of_gt (h : 2 ^ 31 < n) : powerOfTwoDepth n = 4294967295 := by
  obtain ⟨hle, hpow⟩ := (isLeast_nextPowerOfTwo n).1
  have hdouble := mul_two_le_of_isPowerOfTwo ⟨31, rfl⟩ hpow (by omega)
  exact if_neg (by omega)

theorem powerOfTwoDepth_le (n : Nat) : powerOfTwoDepth n ≤ 4294967295 := by
  unfold powerOfTwoDepth
  split <;> omega

theorem le_powerOfTwoDepth (h : n ≤ 4294967295) : n ≤ powerOfTwoDepth n := by
  have hle := (isLeast_nextPowerOfTwo n).1.1
  unfold powerOfTwoDepth
  split <;> omega

theorem powerOfTwoDepth_mono (h : m ≤ n) : powerOfTwoDepth m ≤ powerOfTwoDepth n := by
  by_cases hn : n ≤ 2 ^ 31
  · obtain ⟨hle, hpow⟩ := (powerOfTwoDepth_of_le hn).1
    exact (powerOfTwoDepth_of_le (Nat.le_trans h hn)).2 ⟨by omega, hpow⟩
  · rw [powerOfTwoDepth_of_gt (Nat.lt_of_not_le hn)]
    exact powerOfTwoDepth_le m

end Depth

/-! ## Tight depths -/

/-- **A tight depth for every list of records.** -/
structure TightDepth (depth : List Profile → Nat) : Prop where
  /-- Up to `2 ^ 31` cycles it is the least power of two that holds them all, and beyond that it is the
  largest 32-bit number. -/
  tight : ∀ records, records ≠ [] → ∃ m, IsGreatest (Profile.cycleCounts records) m ∧
    (m ≤ 2 ^ 31 → IsLeast {d | max m 1 ≤ d ∧ d.isPowerOfTwo} (depth records)) ∧
    (2 ^ 31 < m → depth records = 4294967295)
  covers : ∀ records, ∀ r ∈ records, r.cycles.toNat ≤ depth records
  /-- Neither the order of the records, nor their repetition, nor another count matters. -/
  sameCycles : ∀ records records', Profile.cycleCounts records = Profile.cycleCounts records' →
    depth records = depth records'
  /-- Further records never make it smaller. -/
  grows : ∀ records more, depth records ≤ depth (records ++ more)

theorem tightDepth_depth : TightDepth Profile.depth where
  tight records h := ⟨_, Profile.isGreatest_maxCycles h, powerOfTwoDepth_of_le, powerOfTwoDepth_of_gt⟩
  covers records r hr := Nat.le_trans (Profile.le_maxCycles ⟨r, hr, rfl⟩)
    (le_powerOfTwoDepth (Profile.maxCycles_le records))
  sameCycles records records' h := congrArg powerOfTwoDepth
    (Nat.le_antisymm (Profile.maxCycles_mono h.le) (Profile.maxCycles_mono h.ge))
  grows records more := powerOfTwoDepth_mono <| Profile.maxCycles_mono <| by
    rintro n ⟨r, hr, hn⟩
    exact ⟨r, List.mem_append_left more hr, hn⟩

/-! ## The constant of the stream design -/

namespace Design

/-- **The filter of the stream design has a constant that is bound to the depth of a buffer**, also in a
workshop that has been used before. -/
theorem exists_fifoDepth (w : Workshop) : ∃ w' g t c, stream.build w = (w', .ok g) ∧
    g.transform? "filter" = some t ∧ t.constant "fifo_depth" = .ok c ∧ c.name = "fifo_depth" ∧
      w'.store.valueAt? c.cell = some (.computed (.measure .bufferDepth)) := by
  obtain ⟨w', g, hbuild⟩ := stream_build_ok w
  obtain ⟨w₁, g₁, hplans, hlinks⟩ := build_eq_ok hbuild
  -- the plans do not look at the counters, so they can be followed without knowing the workshop
  obtain ⟨w₂, g₂, hplans', t, c, hfilter, hconstant, hname, hvalue⟩ : ∃ w₂ g₂,
      w.addPlans stream.plans (Graph.empty stream.name) = (w₂, .ok g₂) ∧ ∃ t c,
        g₂.transform? "filter" = some t ∧ t.constant "fifo_depth" = .ok c ∧ c.name = "fifo_depth" ∧
          w₂.store.valueAt? c.cell = some (.computed (.measure .bufferDepth)) :=
    ⟨_, _, rfl, _, _, rfl, rfl, rfl, Table.get?_insert_self _ _ _⟩
  cases hplans.symm.trans hplans'
  refine ⟨w', g, t, c, hbuild, ?_, hconstant, hname, ?_⟩
  · rw [← hfilter, Graph.transform?, Graph.transform?, Workshop.addLinks_slots hlinks]
    unfold Graph.transformWithId?
    rw [(Workshop.addLinks_spec hlinks).1]
  · rw [(Workshop.addLinks_store hlinks).1]
    exact hvalue

/-- **The depth of the buffer is tight.**  In every workshop, the constant of the built design resolves
to the decimal text of a tight depth for the records, and without records it is unbound. -/
theorem fifoDepth_tight (w : Workshop) : ∃ w' g t c, stream.build w = (w', .ok g) ∧
    g.transform? "filter" = some t ∧ t.constant "fifo_depth" = .ok c ∧ TightDepth Profile.depth ∧
      (∀ records, records ≠ [] → w'.store.resolve c records =
        (.ok (toString (Profile.depth records)), w'.store)) ∧
      w'.store.resolve c [] = (.error (.unboundValue "fifo_depth" .noRecords), w'.store) := by
  obtain ⟨w', g, t, c, hbuild, hfilter, hconstant, hname, hvalue⟩ := exists_fifoDepth w
  refine ⟨w', g, t, c, hbuild, hfilter, hconstant, tightDepth_depth, fun records hr => ?_, ?_⟩
  · exact (Store.Resolves.measure hvalue hr).resolve_eq (List.length_pos_iff.mpr hr)
  · rw [← hname]
    exact (Store.Resolves.noRecords hvalue).resolve_eq (Nat.le_refl 0)

/-- Records of 5 and 12 cycles, and one record beyond the last power of two that fits. -/
theorem fifoDepth_tight_at_limits : ∃ w' g t c, stream.build (.start 0) = (w', .ok g) ∧
    g.transform? "filter" = some t ∧ t.constant "fifo_depth" = .ok c ∧
      w'.store.resolve c [⟨0, 0, 0, 0, 0, 5⟩, ⟨9, 9, 9, 9, 9, 12⟩] = (.ok "16", w'.store) ∧
      w'.store.resolve c [⟨0, 0, 0, 0, 0, 2147483649⟩] = (.ok "4294967295", w'.store) := by
  obtain ⟨w', g, t, c, hbuild, hfilter, hconstant, -, htext, -⟩ := fifoDepth_tight (.start 0)
  have hsmall : Profile.depth [⟨0, 0, 0, 0, 0, 5⟩, ⟨9, 9, 9, 9, 9, 12⟩] = 16 := by cbv
  have hlarge : Profile.depth [⟨0, 0, 0, 0, 0, 2147483649⟩] = 4294967295 :=
    powerOfTwoDepth_of_gt (by decide)
  refine ⟨w', g, t, c, hbuild, hfilter, hconstant, ?_, ?_⟩
  · rw [htext _ (List.cons_ne_nil _ _), hsmall]
    rfl
  · rw [htext _ (List.cons_ne_nil _ _), hlarge]
    rfl

end Design

end Dataflow
