import Dataflow.Proofs.Session.Identities
import Dataflow.Proofs.Session.Names

/-!
# How many ports can be told apart

Two limits meet in the identity of a port.  The counter has 32 bits and starts over after its largest
number.  What is kept of it is one more than the number, but never more than the largest
(`Ident.keptFrom`), so the largest number and the one before it are kept alike.  Identities therefore
repeat one port before the counter starts over.

Less than a turn apart, two counters have the same identity at this seam only (`Ident.ofCounter_eq_iff`).
So a list of identities that are handed out one after another is without repetition in two cases
(`Ident.nodup_handedOut_iff`): it ends before the largest number, or it begins with that number and ends
before the seam comes round again.  In the first case alone the identities increase
(`Ident.increasing_handedOut_iff`).

A session that makes port after port shows these identities (`Session.shownIds_eq`).  And whatever a
script does, as long as the ports it makes are within the limits, ports with the same identity are the
same port (`Session.eq_of_id_eq`).
-/

namespace Dataflow

namespace Ident

/-! ## The counter and what is kept of it -/

/-- The numbers that are kept for the next `k` ports when the counter, of 32 bits, stands at `c`: each
is one more than the counter, up to the largest number. -/
def keptFrom (c : UInt32) : Nat → List Nat
  | 0 => []
  | k + 1 => min (c.toNat + 1) 4294967295 :: keptFrom (c + 1) k

/-- A counter that has gone beyond the largest number gives the identities of one that has started
over. -/
theorem ofCounter_congr {i j : Nat} (h : i % 4294967296 = j % 4294967296) :
    ofCounter i = ofCounter j := by
  refine Ident.ext ?_
  rw [slot_ofCounter, slot_ofCounter, h]

theorem handedOut_congr {n m : Nat} (h : n % 4294967296 = m % 4294967296) (k : Nat) :
    handedOut n k = handedOut m k := by
  induction k generalizing n m with
  | zero => rfl
  | succ k ih =>
    have hnext : (n + 1) % 4294967296 = (m + 1) % 4294967296 := by omega
    show ofCounter n :: handedOut (n + 1) k = ofCounter m :: handedOut (m + 1) k
    rw [ofCounter_congr h, ih hnext]

/-- **A counter of 32 bits will do**: what is handed out goes on in the same way when it starts over. -/
theorem kept_handedOut (c : UInt32) (k : Nat) :
    (handedOut c.toNat k).map (fun i => i.slot + 1) = keptFrom c k := by
  induction k generalizing c with
  | zero => rfl
  | succ k ih =>
    have hover : (c.toNat + 1) % 4294967296 = (c + 1).toNat % 4294967296 := by
      rw [UInt32.toNat_add]
      exact (Nat.mod_mod _ _).symm
    have hlt := c.toNat_lt
    show ((ofCounter c.toNat).slot + 1) :: (handedOut (c.toNat + 1) k).map _ = _
    rw [handedOut_congr hover, ih, keptFrom, slot_ofCounter]
    congr 1
    omega

/-! ## Where identities repeat -/

/-- **The seam.**  Less than a turn apart, two counters have the same identity only if one of them is
the largest number and the other the number before it. -/
theorem ofCounter_eq_iff {i j : Nat} (hij : i < j) (hj : j < i + 4294967296) :
    ofCounter i = ofCounter j ↔ (i % 4294967296 = 4294967294 ∧ j = i + 1) ∨
      (i % 4294967296 = 4294967295 ∧ j = i + 4294967295) := by
  rw [Ident.ext_iff, slot_ofCounter, slot_ofCounter]
  omega

theorem ofCounter_seam : ofCounter 4294967294 = ofCounter 4294967295 :=
  (ofCounter_eq_iff (by omega) (by omega)).mpr (by omega)

/-- A relation holds along the identities handed out if it holds between any two counters that they
belong to. -/
theorem pairwise_handedOut_iff {R : Ident → Ident → Prop} {n k : Nat} :
    (handedOut n k).Pairwise R ↔
      ∀ i j, n ≤ i → i < j → j < n + k → R (ofCounter i) (ofCounter j) := by
  rw [handedOut_eq, List.pairwise_map, List.pairwise_iff_getElem]
  simp only [List.length_range', List.getElem_range', Nat.one_mul]
  constructor
  · intro h i j hi hij hj
    have hR := h (i - n) (j - n) (by omega) (by omega) (by omega)
    rwa [Nat.add_sub_cancel' hi, Nat.add_sub_cancel' (by omega)] at hR
  · intro h i j _ hj hij
    exact h (n + i) (n + j) (by omega) (by omega) (by omega)

/-- Identities are ordered as the slots are that they are read back as. -/
theorem compare_eq_lt_iff {a b : Ident} : compare a b = .lt ↔ a.slot < b.slot :=
  Nat.compare_eq_lt

section Window
variable {c n : Nat}

theorem nodup_handedOut_iff (hc : c ≤ 4294967295) :
    (handedOut c n).Nodup ↔ n ≤ 1 ∨ c + n ≤ 4294967295 ∨ c = 4294967295 ∧ n ≤ 4294967295 := by
  unfold List.Nodup
  rw [pairwise_handedOut_iff]
  constructor
  · intro h
    by_contra hlimit
    by_cases hlast : c = 4294967295
    · -- a whole turn, so the list comes to the first half of the next seam
      exact h c (c + 4294967295) (by omega) (by omega) (by omega)
        ((ofCounter_eq_iff (by omega) (by omega)).mpr (by omega))
    · -- both halves of the seam are in the list
      exact h 4294967294 4294967295 (by omega) (by omega) (by omega) ofCounter_seam
  · intro hlimit i j hi hij hj heq
    have hseam := (ofCounter_eq_iff hij (by omega)).mp heq
    omega

theorem increasing_handedOut_iff (hc : c ≤ 4294967295) :
    (handedOut c n).Pairwise (fun i j => compare i j = .lt) ↔ n ≤ 1 ∨ c + n ≤ 4294967295 := by
  simp only [compare_eq_lt_iff, pairwise_handedOut_iff, slot_ofCounter]
  constructor
  · intro h
    by_contra hlimit
    -- the slot does not grow at the seam, nor where the counter starts over
    have hnext := h (max c 4294967294) (max c 4294967294 + 1) (by omega) (by omega) (by omega)
    omega
  · intro hlimit i j hi hij hj
    omega

theorem slots_handedOut (h : c + n ≤ 4294967295) :
    (handedOut c n).map (·.slot) = List.range' c n := by
  rw [handedOut_eq, List.map_map]
  refine (List.map_congr_left fun i hi => ?_).trans (List.map_id _)
  have hlt := (List.mem_range'_1.mp hi).2
  exact slot_ofCounter_of_lt (by omega)

end Window

end Ident

/-- **The identities of the next `n` ports**, when the counter, of 32 bits, stands at `c`. -/
structure NumbersPorts (c : UInt32) (n : Nat) (ids : List Ident) : Prop where
  /-- What is kept of them comes from a counter that starts over. -/
  kept : ids.map (fun i => i.slot + 1) = Ident.keptFrom c n
  nodup : ids.Nodup ↔
    n ≤ 1 ∨ c.toNat + n ≤ 4294967295 ∨ c.toNat = 4294967295 ∧ n ≤ 4294967295
  increasing : ids.Pairwise (fun i j => compare i j = .lt) ↔ n ≤ 1 ∨ c.toNat + n ≤ 4294967295
  /-- Below the limit nothing is lost. -/
  slots : c.toNat + n ≤ 4294967295 → ids.map (·.slot) = List.range' c.toNat n

theorem numbersPorts_handedOut (c : UInt32) (n : Nat) :
    NumbersPorts c n (Ident.handedOut c.toNat n) := by
  have hc : c.toNat ≤ 4294967295 := Nat.le_of_lt_succ c.toNat_lt
  exact ⟨Ident.kept_handedOut c n, Ident.nodup_handedOut_iff hc, Ident.increasing_handedOut_iff hc,
    Ident.slots_handedOut⟩

/-! ## Sessions -/

/-- The step makes a port by itself, under a name that is accepted. -/
inductive Step.MakesPort : Step → Prop
  | intro (target name : String) (type : PortType) (d : Direction) (h : IsName name) :
    MakesPort (.createPort target name type d)

/-- The identity of the port that an answer shows. -/
def Answer.portId? (a : Answer) : Option Ident :=
  match a.outcome with
  | .done (.port p) => some p.id
  | _ => none

namespace Session

/-- The identities of the ports that the answers to the steps show. -/
def shownIds (s : Session) (steps : List Step) : List Ident :=
  (s.run steps).2.filterMap Answer.portId?

/-- A port that is made takes the next identity. -/
theorem step_of_makesPort (s : Session) {st : Step} (h : st.MakesPort) :
    (s.step st).2.portId? = some (Ident.allocate s.workshop.nextPort).1 ∧
      (s.step st).1.workshop.nextPort = (Ident.allocate s.workshop.nextPort).2 := by
  obtain ⟨target, name, type, d, hname⟩ := h
  obtain ⟨p, hcreate, hid⟩ : ∃ p, Port.create name type d s.workshop.nextPort =
      (s.workshop.nextPort + 1, .ok p) ∧ p.id = .ofCounter s.workshop.nextPort :=
    ⟨_, Port.create_of_name (checkName_eq_ok_iff.mpr hname) type d _, rfl⟩
  have hin : Work.inWorkshop (·.createPort name type d) s = _ :=
    inWorkshop_of_ok (Workshop.createPort_eq_ok.mpr ⟨_, hcreate, rfl⟩)
  have hperform : s.perform (.createPort target name type d) =
      ((s.withWorkshop { s.workshop with nextPort := s.workshop.nextPort + 1 }).bind target (.port p),
        .done (.port p)) :=
    congrArg conclude (Attempt.bind_of_ok hin)
  unfold step
  rw [hperform]
  exact ⟨congrArg some hid, rfl⟩

/-- **Port after port gets what the counter hands out.** -/
theorem shownIds_eq {steps : List Step} (h : ∀ st ∈ steps, st.MakesPort) (s : Session) :
    s.shownIds steps = Ident.handedOut s.workshop.nextPort steps.length := by
  induction steps generalizing s with
  | nil => rfl
  | cons st rest ih =>
    obtain ⟨hfirst, hrest⟩ := List.forall_mem_cons.mp h
    obtain ⟨hid, hnext⟩ := s.step_of_makesPort hfirst
    have hcons : s.shownIds (st :: rest) =
        (Ident.allocate s.workshop.nextPort).1 :: (s.step st).1.shownIds rest :=
      List.filterMap_cons_some hid
    rw [hcons, ih hrest, hnext]
    rfl

theorem Everywhere.mem_of_hasPort {s : Session} {ps : List Port}
    (hs : s.Everywhere (Trait.among ps)) {p : Port} (hp : s.HasPort p) : p ∈ ps := by
  obtain ⟨x, o, ho, hp⟩ := hp
  rcases Object.mem_ports_iff.mp hp with hloose | ⟨t, ht, hp⟩
  · cases o with
    | port q => exact List.mem_singleton.mp hloose ▸ hs.held x _ ho
    | constant | draft | handle | edge | graph => cases hloose
  · exact ((hs.held x o ho).transform ht).2 p hp

/-- **Ports with the same identity are the same port**, after any script whose ports are within the
limits. -/
theorem eq_of_id_eq {c n : Nat} {steps : List Step} (hc : c ≤ 4294967295)
    (hn : ((start c).run steps).1.workshop.nextPort = c + n)
    (hlimit : n ≤ 1 ∨ c + n ≤ 4294967295 ∨ c = 4294967295 ∧ n ≤ 4294967295) {p q : Port}
    (hp : ((start c).run steps).1.HasPort p) (hq : ((start c).run steps).1.HasPort q)
    (h : p.id = q.id) : p = q := by
  obtain ⟨ps, hps, hall⟩ := (numbered_start c).run (separate_start c) steps
  have hnodup := hps.nodup hn ((Ident.nodup_handedOut_iff hc).mpr hlimit)
  exact List.inj_on_of_nodup_map hnodup (hall.mem_of_hasPort hp) (hall.mem_of_hasPort hq) h

/-- **How long identities are different.**  The limits are exact, wherever the counter stands, and hold
for what a session shows that makes port after port.  From zero on, 4294967295 ports can be told apart,
and the next port has the identity of the one before it. -/
theorem identities_limited (c : UInt32) (n : Nat) :
    NumbersPorts c n (Ident.handedOut c.toNat n) ∧
      (∀ steps : List Step, (∀ st ∈ steps, st.MakesPort) → steps.length = n →
        (start c.toNat).shownIds steps = Ident.handedOut c.toNat n) ∧
      ((Ident.handedOut 0 n).Nodup ↔ n ≤ 4294967295) ∧
      ∃ i, Ident.handedOut 0 4294967296 = Ident.handedOut 0 4294967294 ++ [i, i] := by
  refine ⟨numbersPorts_handedOut c n, fun steps hsteps hlength => ?_, ?_, ?_⟩
  · rw [← hlength]
    exact shownIds_eq hsteps (start c.toNat)
  · rw [Ident.nodup_handedOut_iff (by omega)]
    omega
  · refine ⟨Ident.ofCounter 4294967294, (Ident.handedOut_append 0 4294967294 2).trans ?_⟩
    show _ ++ [Ident.ofCounter 4294967294, Ident.ofCounter 4294967295] = _
    rw [← Ident.ofCounter_seam]

/-- Three ports, the first of which can be the last before the counter starts over. -/
def threeAcross : List Step :=
  [.createPort "a" "x" ⟨"T"⟩ .input, .createPort "b" "x" ⟨"T"⟩ .input,
   .createPort "c" "x" ⟨"T"⟩ .output]

theorem makesPort_threeAcross : ∀ st ∈ threeAcross, st.MakesPort := by
  have hname : IsName "x" := checkName_eq_ok_iff.mp (by decide)
  simp only [threeAcross, List.forall_mem_cons]
  exact ⟨.intro _ _ _ _ hname, .intro _ _ _ _ hname, .intro _ _ _ _ hname, List.forall_mem_nil _⟩

theorem identities_limited_acrossSeam :
    (Ident.handedOut 4294967293 2).map (·.slot) = [4294967293, 4294967294] ∧
      ¬ (Ident.handedOut 4294967293 3).Nodup ∧
      ((start 4294967295).shownIds threeAcross).Nodup ∧
      ¬ ((start 4294967295).shownIds threeAcross).Pairwise (fun i j => compare i j = .lt) := by
  obtain ⟨hnumbers, hshown, -⟩ := identities_limited 4294967295 3
  have heq : (start 4294967295).shownIds threeAcross = _ :=
    hshown threeAcross makesPort_threeAcross rfl
  refine ⟨(identities_limited 4294967293 2).1.slots (by decide), ?_, ?_, ?_⟩
  · exact fun h => absurd ((identities_limited 4294967293 3).1.nodup.mp h) (by decide)
  · rw [heq]
    exact hnumbers.nodup.mpr (by decide)
  · rw [heq]
    exact fun h => absurd (hnumbers.increasing.mp h) (by decide)

end Session

end Dataflow
