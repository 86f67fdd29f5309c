import Dataflow.Proofs.Session.Everywhere
import Mathlib.Data.List.DropRight
import Mathlib.Data.List.TakeWhile

/-!
# Clean names

Trimming takes blanks off both ends of a name, and the check compares the result with the whole name.
What is accepted that way is told from the two ends alone (`IsName`, `checkName_eq_ok_iff`).

Everything that has a name is checked when it is made, and no name is ever changed.  So to be named
like that is a universal trait (`Trait.universal_named`).  Everything that is there after any script
has a clean name, and a port of another name takes no identity (`Session.names_clean`).
-/

namespace Dataflow

/-! ## What is accepted -/

/-- Trimming leaves a text as it is if dropping blanks at either end does. -/
theorem Text.trim_eq_self_iff_drop {s : List Char} :
    trim s = s ↔ s.dropWhile isBlank = s ∧ s.rdropWhile isBlank = s := by
  constructor
  · intro h
    -- neither end can have lost anything, for nothing is missing
    have hprefix := List.rdropWhile_prefix isBlank (l := s.dropWhile isBlank)
    have hsuffix := List.dropWhile_suffix isBlank (l := s)
    have hfront : s.dropWhile isBlank = s := by
      refine hsuffix.eq_of_length (Nat.le_antisymm hsuffix.length_le ?_)
      calc s.length = (trim s).length := by rw [h]
        _ ≤ (s.dropWhile isBlank).length := hprefix.length_le
    refine ⟨hfront, ?_⟩
    calc s.rdropWhile isBlank = (s.dropWhile isBlank).rdropWhile isBlank := by rw [hfront]
      _ = s := h
  · rintro ⟨hfront, hback⟩
    show (s.dropWhile isBlank).rdropWhile isBlank = s
    rw [hfront, hback]

/-- Trimming leaves exactly those texts as they are that are empty or have no blank at either end. -/
theorem Text.trim_eq_self_iff {s : List Char} :
    trim s = s ↔ ∀ h : s ≠ [], isBlank (s.head h) = false ∧ isBlank (s.getLast h) = false := by
  rw [trim_eq_self_iff_drop, List.dropWhile_eq_self_iff, List.rdropWhile_eq_self_iff]
  constructor
  · rintro ⟨hfirst, hlast⟩ h
    rw [List.head_eq_getElem]
    exact ⟨by simpa using hfirst (List.length_pos_iff.mpr h), by simpa using hlast h⟩
  · intro h
    refine ⟨fun hpos => ?_, fun hne => by simpa using (h hne).2⟩
    have hfirst := (h (List.length_pos_iff.mp hpos)).1
    rw [List.head_eq_getElem] at hfirst
    simpa using hfirst

/-- **A clean name** is not empty and has no blank at either end. -/
structure IsName (name : String) : Prop where
  nonempty : name.toList ≠ []
  first : Text.isBlank (name.toList.head nonempty) = false
  last : Text.isBlank (name.toList.getLast nonempty) = false

/-- What is wrong with a name that is not clean. -/
def NameFault.of (name : String) : NameFault := if name = "" then .empty else .padded

section Check
variable {name : String}

theorem isName_iff : IsName name ↔ name.toList ≠ [] ∧ Text.trim name.toList = name.toList := by
  rw [Text.trim_eq_self_iff]
  exact ⟨fun h => ⟨h.nonempty, fun _ => ⟨h.first, h.last⟩⟩,
    fun ⟨hne, h⟩ => ⟨hne, (h hne).1, (h hne).2⟩⟩

/-- **A name is accepted or refused by its ends alone.** -/
theorem checkName_cases (name : String) : (IsName name ∧ checkName name = .ok ()) ∨
    (¬ IsName name ∧ checkName name = .error (.invalidName name (.of name))) := by
  rw [isName_iff]
  unfold checkName NameFault.of
  by_cases hempty : name.toList = []
  · obtain rfl := String.toList_eq_nil_iff.mp hempty
    exact Or.inr ⟨fun h => h.1 rfl, rfl⟩
  · have hne : name ≠ "" := fun h => hempty (String.toList_eq_nil_iff.mpr h)
    rw [if_neg hempty, if_neg hne]
    by_cases htrim : Text.trim name.toList = name.toList
    · exact Or.inl ⟨⟨hempty, htrim⟩, if_neg (not_not.mpr htrim)⟩
    · exact Or.inr ⟨fun h => htrim h.2, if_pos htrim⟩

theorem checkName_eq_ok_iff : checkName name = .ok () ↔ IsName name := by
  rcases checkName_cases name with ⟨hname, heq⟩ | ⟨hname, heq⟩
  · exact ⟨fun _ => hname, fun _ => heq⟩
  · rw [heq]
    exact ⟨nofun, fun h => absurd h hname⟩

theorem checkName_eq_error_iff {e : Error} :
    checkName name = .error e ↔ ¬ IsName name ∧ e = .invalidName name (.of name) := by
  rcases checkName_cases name with ⟨hname, heq⟩ | ⟨hname, heq⟩
  · rw [heq]
    exact ⟨nofun, fun h => absurd hname h.1⟩
  · rw [heq, Except.error.injEq, eq_comm]
    exact ⟨fun h => ⟨hname, h⟩, fun h => h.2⟩

end Check

example : checkName "a b" = .ok () ∧ checkName " " = .error (.invalidName " " .padded) ∧
    checkName "" = .error (.invalidName "" .empty) := by decide

/-! ## What is named -/

/-- A transform with a clean name, whose constants and ports have clean names. -/
structure Transform.Named (t : Transform) : Prop where
  name : IsName t.name
  constants : ∀ c ∈ t.constants, IsName c.name
  ports : ∀ p ∈ t.ports, IsName p.name

namespace Trait

/-- Transforms, ports and constants with clean names. -/
def named : Trait where
  transform := Transform.Named
  port p := IsName p.name
  constant c := IsName c.name

/-- **Clean names are a universal trait.** -/
theorem universal_named : named.Universal where
  withMemory reads writes ht := ⟨ht.name, ht.constants, ht.ports⟩
  addConstant ht hc h := by
    obtain ⟨-, rfl⟩ := Transform.addConstant_eq_ok.mp h
    exact ⟨ht.name, List.forall_mem_append.mpr ⟨ht.constants, List.forall_mem_singleton.mpr hc⟩,
      ht.ports⟩
  addPortTo {t t' d p} ht hp h := by
    have hports := (Transform.ports_of_addPortTo h).2
    obtain ⟨-, -, rfl⟩ := Transform.addPortTo_eq_ok.mp h
    refine ⟨?_, ?_, fun q hq => ?_⟩
    · rw [Transform.name_appendPort]
      exact ht.name
    · rw [Transform.constants_appendPort]
      exact ht.constants
    · rcases hports q hq with hold | hnew
      · exact ht.ports q hold
      · rw [List.mem_singleton.mp hnew]
        exact hp
  create h := by
    obtain ⟨hname, rfl⟩ := Transform.create_eq_ok.mp h
    exact ⟨checkName_eq_ok_iff.mp hname, nofun, nofun⟩
  createPort h := by
    obtain ⟨hname, rfl, -⟩ := Port.create_eq_ok.mp h
    exact checkName_eq_ok_iff.mp hname
  createConstant h := by
    obtain ⟨hname, rfl, -⟩ := Store.createConstant_eq_ok.mp h
    exact checkName_eq_ok_iff.mp hname

end Trait

/-! ## What is refused -/

/-- The ports that are made for a plan come first in it and have clean names. -/
theorem exists_portsMade (taken ports : List (Direction × String)) : ∃ made rest,
    ports = made ++ rest ∧ (∀ port ∈ made, IsName port.2) ∧ portsMade taken ports = made.length := by
  induction ports generalizing taken with
  | nil => exact ⟨[], [], rfl, nofun, rfl⟩
  | cons port rest ih =>
    unfold portsMade
    rcases checkName_cases port.2 with ⟨hname, heq⟩ | ⟨-, heq⟩
    · simp only [heq]
      split
      · exact ⟨[port], rest, rfl, List.forall_mem_singleton.mpr hname, rfl⟩
      · obtain ⟨made, rest', rfl, hmade, hlength⟩ := ih (port :: taken)
        exact ⟨port :: made, rest', rfl, List.forall_mem_cons.mpr ⟨hname, hmade⟩,
          by rw [hlength, List.length_cons]⟩
    · simp only [heq]
      exact ⟨[], port :: rest, rfl, nofun, rfl⟩

theorem Plan.exists_portsMade (plan : Plan) : ∃ made rest, plan.portNames = made ++ rest ∧
    (∀ port ∈ made, IsName port.2) ∧ plan.portsMade = made.length := by
  unfold portsMade
  split
  · exact ⟨[], plan.portNames, rfl, nofun, rfl⟩
  · exact Dataflow.exists_portsMade [] plan.portNames

theorem Workshop.createPort_refused {name : String} (h : ¬ IsName name) (w : Workshop)
    (type : PortType) (d : Direction) :
    w.createPort name type d = (w, .error (.invalidName name (.of name))) :=
  createPort_eq_error.mpr ⟨checkName_eq_error_iff.mpr ⟨h, rfl⟩, rfl⟩

theorem Workshop.createConstant_refused {name : String} (h : ¬ IsName name) (w : Workshop)
    (v : Option Value) :
    w.createConstant name v = (w, .error (.invalidName name (.of name))) :=
  createConstant_eq_error.mpr ⟨checkName_eq_error_iff.mpr ⟨h, rfl⟩, rfl⟩

theorem Workshop.make_refused {plan : Plan} (h : ¬ IsName plan.name) (w : Workshop) :
    w.make plan = (w, .error (.invalidName plan.name (.of plan.name))) := by
  have hcreate : Transform.create w.nextSerial plan.name =
      .error (.invalidName plan.name (.of plan.name)) := by
    unfold Transform.create
    rw [checkName_eq_error_iff.mpr ⟨h, rfl⟩]
    rfl
  unfold make
  rw [hcreate]

/-! ## Runs -/

namespace Session
variable {s : Session}

/-- **Everything that is there has a clean name.** -/
structure CleanlyNamed (s : Session) : Prop where
  transforms : ∀ t, s.Reaches t → t.Named
  ports : ∀ x p, s.Holds x (.port p) → IsName p.name
  constants : ∀ x c, s.Holds x (.constant c) → IsName c.name

theorem Everywhere.cleanlyNamed (hs : s.Everywhere Trait.named) : s.CleanlyNamed where
  transforms _ ht := hs.transform ht
  ports x _ hp := hs.held x _ hp
  constants x _ hc := hs.held x _ hc

/-- **A name that is refused takes no identity.** -/
structure RefusesNames (s : Session) : Prop where
  port : ∀ x name type d, ¬ IsName name →
    s.perform (.createPort x name type d) = (s, .refused (.invalidName name (.of name)))
  /-- The value of a constant is looked at before the name, and it has to make sense. -/
  constant : ∀ x name v, ¬ IsName name → (s.perform (.createConstant x name v)).1 = s ∧
    ((s.valueIfSome v).isOk →
      (s.perform (.createConstant x name v)).2 = .refused (.invalidName name (.of name)))
  transform : ∀ x spec, ¬ IsName spec.name → s.perform (.createTransform x spec) =
    (s, .refused (.invalidName spec.name (.of spec.name)))
  /-- Of the ports of a plan, the first few take an identity, and all of these have clean names. -/
  plan : ∀ x spec, ∃ made rest, (s.plan spec).portNames = made ++ rest ∧
    (∀ port ∈ made, IsName port.2) ∧
    (s.perform (.createTransform x spec)).1.workshop.nextPort = s.workshop.nextPort + made.length

theorem nextPort_createTransform (s : Session) (x : String) (spec : PlanSpec) :
    (s.perform (.createTransform x spec)).1.workshop.nextPort =
      s.workshop.nextPort + (s.plan spec).portsMade := by
  rw [← Workshop.nextPort_make]
  rcases s.createTransform_cases x spec with ⟨w, e, hmake, h⟩ | ⟨w, t, hmake, ⟨-, h⟩ | ⟨-, h⟩⟩
  · rw [h, hmake]
    rfl
  · rw [h, hmake]
    rfl
  · rw [h, hmake]
    rfl

/-- What the workshop refuses for its name leaves no trace in the session. -/
theorem refusesNames (s : Session) : s.RefusesNames where
  port x name type d h := by
    have hin : Work.inWorkshop (·.createPort name type d) s = _ :=
      inWorkshop_of_error (Workshop.createPort_refused h s.workshop type d)
    exact congrArg conclude (Attempt.bind_of_error hin)
  constant x name v h := by
    let P := fun done : Session × Except Obstacle Reply => done.1 = s ∧
      ((s.valueIfSome v).isOk → Outcome.of done.2 = .refused (.invalidName name (.of name)))
    refine Attempt.read_bind_elim (P := P) (fun f hf => ⟨rfl, fun hok => ?_⟩) fun value _ => ?_
    · rw [hf] at hok
      cases hok
    · have hin : Work.inWorkshop (·.createConstant name value) s = _ :=
        inWorkshop_of_error (Workshop.createConstant_refused h s.workshop value)
      rw [Attempt.bind_of_error hin]
      exact ⟨rfl, fun _ => rfl⟩
  transform x spec h := by
    have hname : ¬ IsName (s.plan spec).name := h
    have hmake := Workshop.make_refused hname s.workshop
    rcases s.createTransform_cases x spec with ⟨w, e, hw, heq⟩ | ⟨w, t, hw, -⟩
    · cases hmake.symm.trans hw
      exact heq
    · cases hmake.symm.trans hw
  plan x spec := by
    obtain ⟨made, rest, hports, hmade, hlength⟩ := (s.plan spec).exists_portsMade
    exact ⟨made, rest, hports, hmade, by rw [← hlength]; exact nextPort_createTransform s x spec⟩

/-- **Exactly the clean names are accepted**; after any script everything that is there has one, and
a name that is refused takes no identity. -/
theorem names_clean (n : Nat) (steps : List Step) :
    (∀ name, checkName name = .ok () ↔ IsName name) ∧
      (∀ name e, checkName name = .error e ↔ ¬ IsName name ∧ e = .invalidName name (.of name)) ∧
      ((start n).run steps).1.CleanlyNamed ∧ ((start n).run steps).1.RefusesNames :=
  ⟨fun _ => checkName_eq_ok_iff, fun _ _ => checkName_eq_error_iff,
    (everywhere_of_run Trait.universal_named n steps).cleanlyNamed, refusesNames _⟩

end Session

end Dataflow
