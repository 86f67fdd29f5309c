import Dataflow.Proofs.Profile.Format

/-!
# What becomes of a record of integers

The records of a list are read one after the other.  Here are some that are in order, and behind them one
more, whose values are all integers.  Whether it is a record, and what is said of it if it is none, depends
on its text alone, and the first thing that is wrong is what is said.

* In an object, the members come in the order of the text (`ObjectVerdict`): the first one that names a field
  again, or that gives a field a value that is no count, decides.  Where there is none, the first missing
  field does, and now the order is that of the declaration.  Members of other names decide nothing.
* In an array, the number of values decides (`ArrayVerdict`).

There is one such verdict (`ObjectVerdict.unique`), the reader comes to it, and it comes to it before it
looks at what follows (`record_outcome`).
-/

namespace Dataflow.Profile

open Json

/-! ## Answers -/

/-- A refusal as it is shown: its class, and its words if it has any. -/
structure Report where
  category : String
  message? : Option String
deriving DecidableEq, Repr

/-- A text that is JSON, but no list of records. -/
def Report.data (message : String) : Report := ⟨"Data", some message⟩

/-- A text that is no JSON. -/
def Report.noJson : Report := ⟨"Syntax", none⟩

/-- How the refusal is shown. -/
def ReadError.report (e : ReadError) : Report := ⟨e.category, e.message?⟩

/-- The records of a text, or what is shown when it is refused. -/
def answer (s : List Char) : Except Report (List Profile) :=
  (readAll (String.ofList s)).mapError ReadError.report

/-- What stands in front of the next part, when these records come before it. -/
inductive Preceded : Bool → List Profile → List Char → Prop
  | lead {first : Bool} {l : List Char} (hl : Lead first l) : Preceded first [] l
  | record {first : Bool} {l v s : List Char} {p : Profile} {ps : List Profile} (hl : Lead first l)
      (hp : RecordText p v) (h : Preceded false ps s) : Preceded first (p :: ps) (l ++ (v ++ s))

/-- **A list of records up to where the next record begins.** -/
def OpenText (ps : List Profile) (s : List Char) : Prop :=
  ∃ a t, s = a ++ '[' :: t ∧ Spaces a ∧ Preceded true ps t

/-- **What becomes of the record at the end of the text**, behind these records.  It is refused whatever
follows, or the list can be closed behind it, and it is the last one of the list. -/
def Outcome (ps : List Profile) (s : List Char) : Except Report Profile → Prop
  | .error report => ∀ r, answer (s ++ r) = .error report
  | .ok p => ∀ a b, Spaces a → Spaces b → answer (s ++ (a ++ ']' :: b)) = .ok (ps ++ [p])

/-! ## Verdicts -/

/-- A member whose value is an integer of 64 bits, under any name. -/
inductive IntegerMember : String × Int → List Char → Prop
  | mk {name : String} {k : Int} {b a c v : List Char} (hb : Spells b name.toList) (ha : Spaces a)
      (hc : Spaces c) (hv : IntegerText k v) (hlow : -(2 ^ 63) ≤ k) (hhigh : k < 2 ^ 64) :
      IntegerMember (name, k) ('"' :: (b ++ '"' :: (a ++ ':' :: (c ++ v))))

/-- **Why a member is refused** behind these other members: its field has been named before, or, if not,
its value is no count of 32 bits. -/
inductive Refused (before : List (String × Int)) : String × Int → String → Prop
  | again {f : Field} {k : Int} (h : f.name ∈ before.map Prod.fst) :
      Refused before (f.name, k) ("duplicate field `" ++ f.name ++ "`")
  | outOfRange {f : Field} {k : Int} (hnew : f.name ∉ before.map Prod.fst)
      (hk : ¬ (0 ≤ k ∧ k ≤ 4294967295)) :
      Refused before (f.name, k) ("invalid value: integer `" ++ toString k ++ "`, expected u32")

/-- No member is refused behind those before it. -/
def Unrefused (ms : List (String × Int)) : Prop :=
  ∀ before m after, ms = before ++ m :: after → ∀ message, ¬ Refused before m message

/-- **What becomes of an object with these members.** -/
inductive ObjectVerdict (ms : List (String × Int)) : Except Report Profile → Prop
  /-- The first member that is refused decides. -/
  | refused {before after : List (String × Int)} {m : String × Int} {message : String}
      (hms : ms = before ++ m :: after) (hbefore : Unrefused before)
      (hm : Refused before m message) : ObjectVerdict ms (.error (.data message))
  /-- No member is refused, and then the first field that is missing decides. -/
  | incomplete {earlier later : List Field} {f : Field} (hms : Unrefused ms)
      (hall : Field.all = earlier ++ f :: later) (hearlier : ∀ g ∈ earlier, g.name ∈ ms.map Prod.fst)
      (hf : f.name ∉ ms.map Prod.fst) :
      ObjectVerdict ms (.error (.data ("missing field `" ++ f.name ++ "`")))
  /-- No member is refused and no field is missing. -/
  | complete {p : Profile} (hms : Unrefused ms)
      (hp : ∀ f : Field, (f.name, ((p.get f).toNat : Int)) ∈ ms) : ObjectVerdict ms (.ok p)

/-- **What becomes of an array of these counts.** -/
inductive ArrayVerdict : List UInt32 → Except Report Profile → Prop
  | six {a b c d e f : UInt32} : ArrayVerdict [a, b, c, d, e, f] (.ok ⟨a, b, c, d, e, f⟩)
  | fewer {ns : List UInt32} (h : ns.length < 6) :
      ArrayVerdict ns (.error (.data ("invalid length " ++ toString ns.length ++
        ", expected struct VertexProfile with 6 elements")))
  | more {ns : List UInt32} (h : 6 < ns.length) : ArrayVerdict ns (.error .noJson)

/-! ## There is one verdict -/

section Unique
variable {ms before before' after after' : List (String × Int)} {m m' : String × Int}
  {message message' : String} {o o' : Except Report Profile} {f : Field} {k k' : Int}

/-- The first place of a list at which something is the case. -/
theorem eq_of_first {α : Type} {P : List α → α → Prop} {b b' c c' : List α} {x x' : α}
    (hsplit : b ++ x :: c = b' ++ x' :: c') (hb : ∀ d y e, b = d ++ y :: e → ¬ P d y) (hx : P b x)
    (hb' : ∀ d y e, b' = d ++ y :: e → ¬ P d y) (hx' : P b' x') : b = b' ∧ x = x' := by
  obtain ⟨d, rfl, h⟩ | ⟨d, rfl, h⟩ := List.append_eq_append_iff.mp hsplit
  · cases d with
    | nil => exact ⟨(List.append_nil b).symm, (List.cons.inj h).1⟩
    | cons y e =>
      obtain ⟨rfl, -⟩ := List.cons.inj h
      exact absurd hx (hb' b x e rfl)
  · cases d with
    | nil => exact ⟨List.append_nil b', (List.cons.inj h).1.symm⟩
    | cons y e =>
      obtain ⟨rfl, -⟩ := List.cons.inj h
      exact absurd hx' (hb b' x' e rfl)

theorem Refused.unique (h : Refused before m message) (h' : Refused before m message') :
    message = message' := by
  cases h with
  | @again f k h =>
    generalize hname : f.name = name at h h'
    cases h' with
    | again => rfl
    | outOfRange hnew => exact absurd h hnew
  | @outOfRange f k hnew hk =>
    generalize hname : f.name = name at hnew h'
    cases h' with
    | again h => exact absurd h hnew
    | outOfRange => rfl

/-- A field that is new and has a count is not refused. -/
theorem not_refused_of_new (hnew : f.name ∉ before.map Prod.fst) (hk : 0 ≤ k ∧ k ≤ 4294967295) :
    ¬ Refused before (f.name, k) message := by
  intro h
  generalize hf : f.name = name at hnew h
  cases h with
  | again h => exact hnew h
  | outOfRange _ hnot => exact hnot hk

/-- A member of another name is not refused. -/
theorem not_refused_of_other (hm : ∀ f : Field, m.1 ≠ f.name) : ¬ Refused before m message := by
  intro h
  cases h with
  | again => exact hm _ rfl
  | outOfRange => exact hm _ rfl

theorem Unrefused.not_refused (h : Unrefused ms) (hms : ms = before ++ m :: after)
    (hm : Refused before m message) : False :=
  h before m after hms message hm

/-- A field that is named twice is refused. -/
theorem Unrefused.eq_of_mem (h : Unrefused ms) (hk : (f.name, k) ∈ ms) (hk' : (f.name, k') ∈ ms) :
    k = k' := by
  obtain ⟨before, after, rfl⟩ := List.append_of_mem hk
  rcases List.mem_append.mp hk' with hk' | hk'
  · exact absurd (.again (List.mem_map.mpr ⟨_, hk', rfl⟩)) (h before _ after rfl _)
  · rcases List.mem_cons.mp hk' with heq | hk'
    · exact (Prod.mk.inj heq).2.symm
    · obtain ⟨between, after, rfl⟩ := List.append_of_mem hk'
      refine absurd (.again ?_) (h (before ++ (f.name, k) :: between) (f.name, k') after (by simp) _)
      exact List.mem_map.mpr ⟨(f.name, k), by simp, rfl⟩

theorem eq_of_get_eq {p p' : Profile} (h : ∀ f, p.get f = p'.get f) : p = p' := by
  cases p
  cases p'
  rw [Profile.mk.injEq]
  exact ⟨h .elements, h .valids, h .readies, h .transfers, h .packets, h .cycles⟩

/-- **There is one verdict on an object.** -/
theorem ObjectVerdict.unique (h : ObjectVerdict ms o) (h' : ObjectVerdict ms o') : o = o' := by
  cases h with
  | @refused before after m message hms hbefore hm =>
    cases h' with
    | @refused before' after' m' message' hms' hbefore' hm' =>
      obtain ⟨rfl, rfl⟩ := eq_of_first (P := fun b m => ∃ message, Refused b m message)
        (hms.symm.trans hms') (fun d y e he hy => hbefore d y e he _ hy.choose_spec) ⟨_, hm⟩
        (fun d y e he hy => hbefore' d y e he _ hy.choose_spec) ⟨_, hm'⟩
      rw [hm.unique hm']
    | incomplete hfine => exact (hfine.not_refused hms hm).elim
    | complete hfine => exact (hfine.not_refused hms hm).elim
  | @incomplete earlier later f hfine hall hearlier hf =>
    cases h' with
    | refused hms _ hm => exact (hfine.not_refused hms hm).elim
    | @incomplete earlier' later' f' _ hall' hearlier' hf' =>
      obtain ⟨-, rfl⟩ := eq_of_first (P := fun _ g => g.name ∉ ms.map Prod.fst)
        (hall.symm.trans hall') (fun d g e he hg => hg (hearlier g (by simp [he]))) hf
        (fun d g e he hg => hg (hearlier' g (by simp [he]))) hf'
      rfl
    | complete _ hp => exact absurd (List.mem_map.mpr ⟨_, hp f, rfl⟩) hf
  | @complete p hfine hp =>
    cases h' with
    | refused hms _ hm => exact (hfine.not_refused hms hm).elim
    | incomplete _ _ _ hf => exact absurd (List.mem_map.mpr ⟨_, hp _, rfl⟩) hf
    | @complete p' _ hp' =>
      refine congrArg Except.ok (eq_of_get_eq fun f => UInt32.toNat_inj.mp ?_)
      exact Int.ofNat.inj (hfine.eq_of_mem (hp f) (hp' f))

end Unique

/-! ## Members -/

section Members
variable {seen : Seen} {ms : List (String × Int)} {m : String × Int} {a r t v : List Char} {k : Int}
  {first : Bool} {f : Field}

theorem readCount_integer (ha : Spaces a) (hv : IntegerText k v) (hlow : -(2 ^ 63) ≤ k)
    (hhigh : k < 2 ^ 64) (hr : EndsNumber r) : readCount (a ++ (v ++ r)) =
      if 0 ≤ k ∧ k ≤ 4294967295 then .ok (UInt32.ofNat k.toNat, r)
      else refuse (.countOutOfRange k) := by
  have hnumber := scanNumber_integer hv hlow hhigh hr
  obtain ⟨c, w, rfl, hspace, hc⟩ : ∃ c w, v = c :: w ∧ isSpace c = false ∧ (c = '-' ∨ c.isDigit) := by
    cases hv with
    | natural =>
      obtain ⟨c, w, hw, hc⟩ := whole_toDigits.exists_cons
      exact ⟨c, w, hw, isSpace_of_isDigit hc, .inr hc⟩
    | negative hn => exact ⟨'-', _, rfl, rfl, .inl rfl⟩
  have hs : skipSpaces (a ++ (c :: w ++ r)) = c :: (w ++ r) := by
    rw [skipSpaces_append ha, List.cons_append, skipSpaces_cons hspace]
  rw [List.cons_append] at hnumber
  simp only [readCount, hs, hnumber, if_pos hc]

/-- The fields that have been seen are those that the members name, with the values that these give
them. -/
structure Seen.Tracks (seen : Seen) (ms : List (String × Int)) : Prop where
  named : ∀ f : Field, seen.lookup f = none ↔ f.name ∉ ms.map Prod.fst
  value : ∀ (f : Field) n, seen.lookup f = some n → (f.name, (n.toNat : Int)) ∈ ms

theorem Seen.tracks_nil : Seen.Tracks [] [] := ⟨fun _ => by simp, nofun⟩

theorem lookup_singleton {g : Field} {n : UInt32} :
    List.lookup g [(f, n)] = if g = f then some n else none := by
  by_cases h : g = f
  · simp [h]
  · have hne : (g == f) = false := by simpa using h
    simp [List.lookup_cons, hne, h]

/-- A member of another name changes nothing. -/
theorem Seen.Tracks.other (h : seen.Tracks ms) (hm : ∀ f : Field, m.1 ≠ f.name) :
    seen.Tracks (ms ++ [m]) where
  named f := by
    rw [h.named f, List.map_append, List.map_singleton, List.mem_append, List.mem_singleton, not_or]
    exact (and_iff_left fun heq => hm f heq.symm).symm
  value f n hf := List.mem_append_left _ (h.value f n hf)

theorem Seen.Tracks.field (h : seen.Tracks ms) (hnew : seen.lookup f = none) {n : UInt32}
    (hk : (n.toNat : Int) = k) : Seen.Tracks (seen ++ [(f, n)]) (ms ++ [(f.name, k)]) where
  named g := by
    have hg := h.named g
    rw [List.lookup_append, Option.or_eq_none_iff, hg, List.map_append, List.map_singleton,
      List.mem_append, List.mem_singleton, not_or]
    refine and_congr_right fun _ => ?_
    rw [lookup_singleton, ite_eq_right_iff]
    exact ⟨fun h heq => (nomatch h (Field.name_injective heq)), fun h heq => absurd (heq ▸ rfl) h⟩
  value g n' hg := by
    rw [List.lookup_append, Option.or_eq_some_iff] at hg
    rcases hg with hg | ⟨-, hg⟩
    · exact List.mem_append_left _ (h.value g n' hg)
    · rw [lookup_singleton, ite_eq_iff] at hg
      obtain ⟨rfl, hn⟩ | ⟨-, hn⟩ := hg
      · cases hn
        rw [hk]
        simp
      · cases hn

/-- **A member is refused for its reason, or it is taken.** -/
theorem readMember_integer (htracks : seen.Tracks ms) (hm : IntegerMember m ('"' :: v))
    (hr : EndsNumber r) :
    (∃ e message, readMember seen (v ++ r) = .error e ∧ e.report = .data message ∧
        Refused ms m message) ∨
      ∃ seen', readMember seen (v ++ r) = .ok (seen', r) ∧ Seen.Tracks seen' (ms ++ [m]) ∧
        ∀ message, ¬ Refused ms m message := by
  cases hm with
  | @mk name k b a c v hb ha hc hv hlow hhigh =>
    by_cases hfield : ∃ f : Field, name = f.name
    · obtain ⟨f, rfl⟩ := hfield
      have hname : scanString (b ++ '"' :: (a ++ ':' :: (c ++ v)) ++ r) =
          .ok (f.name.toList, a ++ ':' :: (c ++ v) ++ r) :=
        scanString_eq_ok_iff.mpr ⟨b, by simp, hb⟩
      have hcolon : scanColon (a ++ ':' :: (c ++ v) ++ r) = .ok (c ++ (v ++ r)) :=
        scanColon_eq_ok_iff.mpr ⟨a, ha, by simp⟩
      have hcount := readCount_integer hc hv hlow hhigh hr
      simp only [readMember, hname, ofName?_eq_some_iff.mpr rfl, readField]
      cases hseen : seen.lookup f with
      | some n =>
        have hnamed : f.name ∈ ms.map Prod.fst := by
          by_contra hnot
          rw [(htracks.named f).mpr hnot] at hseen
          cases hseen
        exact .inl ⟨_, _, rfl, rfl, .again hnamed⟩
      | none =>
        have hnew := (htracks.named f).mp hseen
        simp only [hcolon, hcount]
        by_cases hk : 0 ≤ k ∧ k ≤ 4294967295
        · rw [if_pos hk]
          have hnat : (((UInt32.ofNat k.toNat).toNat : Nat) : Int) = k := by
            rw [UInt32.toNat_ofNat_of_lt' (by unfold UInt32.size; omega), Int.toNat_of_nonneg hk.1]
          exact .inr ⟨_, rfl, htracks.field hseen hnat, fun message => not_refused_of_new hnew hk⟩
        · rw [if_neg hk]
          exact .inl ⟨_, _, rfl, rfl, .outOfRange hnew hk⟩
    · have hother : ∀ f : Field, name ≠ f.name := fun f heq => hfield ⟨f, heq⟩
      have htext : MemberText none ('"' :: (b ++ '"' :: (a ++ ':' :: (c ++ v)))) :=
        .other hb (fun f heq => hother f (String.toList_inj.mp heq)) ha hc hv.written
      have hread : readMember seen (b ++ '"' :: (a ++ ':' :: (c ++ v)) ++ r) =
          .ok (seen ++ [], r) :=
        readMember_append htext hr fun q hq => absurd hq (Option.not_mem_none q)
      rw [List.append_nil] at hread
      exact .inr ⟨seen, hread, htracks.other hother, fun message => not_refused_of_other hother⟩

end Members

/-! ## Objects -/

section Objects
variable {seen : Seen} {before ms : List (String × Int)} {m : String × Int} {r t : List Char}
  {first : Bool} {f : Field}

theorem mapM_of_split {α β ε : Type} {g : α → Except ε β} {before after : List α} {a : α} {e : ε}
    (hbefore : ∀ b ∈ before, ∃ y, g b = .ok y) (ha : g a = .error e) :
    (before ++ a :: after).mapM g = .error e := by
  induction before with
  | nil =>
    rw [List.nil_append, List.mapM_cons, ha]
    rfl
  | cons b before ih =>
    obtain ⟨⟨y, hb⟩, hrest⟩ := List.forall_mem_cons.mp hbefore
    rw [List.cons_append, List.mapM_cons, hb, ih hrest]
    rfl

/-- A record needs its fields one after the other. -/
theorem mapM_need :
    Field.all.mapM seen.need = seen.record.map fun p => p.fields.map Prod.snd := by
  simp only [Field.all, List.mapM_cons, List.mapM_nil, Seen.record]
  rcases seen.need .elements with e | elements
  · rfl
  rcases seen.need .valids with e | valids
  · rfl
  rcases seen.need .readies with e | readies
  · rfl
  rcases seen.need .transfers with e | transfers
  · rfl
  rcases seen.need .packets with e | packets
  · rfl
  rcases seen.need .cycles with e | cycles
  · rfl
  rfl

/-- **The first field that is missing is reported.** -/
theorem record_of_missing {earlier later : List Field} (hall : Field.all = earlier ++ f :: later)
    (hearlier : ∀ g ∈ earlier, seen.lookup g ≠ none) (hf : seen.lookup f = none) :
    seen.record = .error (.misfit (.missingField f)) := by
  have hneed : seen.need f = .error (.misfit (.missingField f)) := by
    simp only [Seen.need, hf]
    rfl
  have hbefore : ∀ g ∈ earlier, ∃ n, seen.need g = .ok n := by
    intro g hg
    obtain ⟨n, hn⟩ := Option.ne_none_iff_exists'.mp (hearlier g hg)
    exact ⟨n, need_eq_ok_iff.mpr hn⟩
  have hfail : Field.all.mapM seen.need = .error (.misfit (.missingField f)) := by
    rw [hall]
    exact mapM_of_split hbefore hneed
  rw [mapM_need] at hfail
  rcases hrecord : seen.record with e | p
  · rw [hrecord] at hfail
    cases hfail
    rfl
  · rw [hrecord] at hfail
    cases hfail

theorem unrefused_nil : Unrefused [] := by
  intro before m after h
  simp at h

theorem Unrefused.snoc (h : Unrefused ms) (hm : ∀ message, ¬ Refused ms m message) :
    Unrefused (ms ++ [m]) := by
  intro before m' after hms message
  rcases List.eq_nil_or_concat after with rfl | ⟨after', x, rfl⟩
  · obtain ⟨rfl, hm'⟩ := List.append_inj' hms rfl
    cases hm'
    exact hm message
  · rw [List.concat_eq_append, ← List.cons_append, ← List.append_assoc] at hms
    exact h before m' after' (List.append_inj' hms rfl).1 message

/-- At the end of the members, the fields that have been seen decide. -/
theorem Seen.Tracks.verdict (h : seen.Tracks ms) (hms : Unrefused ms) :
    ∃ o, ObjectVerdict ms o ∧ seen.record.mapError ReadError.report = o := by
  cases hfind : Field.all.find? fun g => (seen.lookup g).isNone with
  | some f =>
    obtain ⟨hf, earlier, later, hall, hearlier⟩ := List.find?_eq_some_iff_append.mp hfind
    have hf : seen.lookup f = none := Option.isNone_iff_eq_none.mp hf
    have hearlier : ∀ g ∈ earlier, seen.lookup g ≠ none := by
      intro g hg hnone
      simpa [hnone] using hearlier g hg
    have hnamed : ∀ g ∈ earlier, g.name ∈ ms.map Prod.fst := fun g hg =>
      not_not.mp fun hnot => hearlier g hg ((h.named g).mpr hnot)
    refine ⟨_, .incomplete hms hall hnamed ((h.named f).mp hf), ?_⟩
    rw [record_of_missing hall hearlier hf]
    rfl
  | none =>
    have hseen : ∀ g, ∃ n, seen.lookup g = some n := by
      intro g
      have hg := List.find?_eq_none.mp hfind g (Field.mem_all g)
      exact Option.ne_none_iff_exists'.mp fun hnone => hg (by rw [hnone]; rfl)
    choose count hcount using hseen
    obtain ⟨p, hp⟩ : ∃ p : Profile, ∀ g, p.get g = count g :=
      ⟨⟨count .elements, count .valids, count .readies, count .transfers, count .packets,
        count .cycles⟩, fun g => by cases g <;> rfl⟩
    refine ⟨.ok p, .complete hms fun g => h.value g _ (hp g ▸ hcount g), ?_⟩
    rw [record_eq_ok_iff.mpr fun g => hp g ▸ hcount g]
    rfl

/-- **The reader comes to the verdict on an object.**  The invariant is that the members before were
taken, and that the fields seen so far are theirs. -/
theorem readMembers_integers (h : Listed IntegerMember first ms t) {seen : Seen}
    (htracks : seen.Tracks before) (hbefore : Unrefused before) :
    ∃ o, ObjectVerdict (before ++ ms) o ∧
      (readMembers first seen (t ++ '\x7d' :: r)).mapError ReadError.report =
        o.map fun p => (p, r) := by
  induction h generalizing before seen with
  | nil ha =>
    obtain ⟨o, hverdict, hrecord⟩ := htracks.verdict hbefore
    rw [readMembers_of_closed (nextMember_eq_closed_iff.mpr ⟨_, ha, rfl⟩), List.append_nil]
    refine ⟨o, hverdict, ?_⟩
    rw [← hrecord]
    cases seen.record <;> rfl
  | @cons first l v t m ms hl hm h ih =>
    obtain ⟨w, rfl⟩ : ∃ w, v = '"' :: w := by
      cases hm with
      | mk => exact ⟨_, rfl⟩
    have hnext : nextMember first (l ++ ('"' :: w ++ t) ++ '\x7d' :: r) =
        .ok (.part (w ++ (t ++ '\x7d' :: r))) :=
      nextMember_eq_part_iff.mpr ⟨l, by simp, hl⟩
    rcases readMember_integer htracks hm (h.endsNumber .object) with
      ⟨e, message, hread, hreport, hrefused⟩ | ⟨seen', hread, htracks', hnot⟩
    · refine ⟨.error (.data message), .refused rfl hbefore hrefused, ?_⟩
      rw [readMembers_of_refused hnext hread, ← hreport]
      rfl
    · obtain ⟨o, hverdict, hrest⟩ := ih htracks' (hbefore.snoc hnot)
      rw [readMembers_of_part hnext hread]
      exact ⟨o, by simpa using hverdict, hrest⟩

end Objects

/-! ## Arrays -/

section Arrays
variable {ns : List UInt32} {t r : List Char} {first : Bool} {done left : Nat}

/-- The counts of an array are read as far as they go. -/
theorem readCounts_listed (h : Listed CountText first ns t) (hfirst : decide (done = 0) = first) :
    (ns.length < left →
      readCounts done left (t ++ ']' :: r) = .error (.misfit (.tooShort (done + ns.length)))) ∧
    (left ≤ ns.length → ∃ t', readCounts done left (t ++ ']' :: r) = .ok (ns.take left, t' ++ ']' :: r) ∧
      Listed CountText (decide (done + left = 0)) (ns.drop left) t') := by
  induction h generalizing done left with
  | @nil first a ha =>
    cases left with
    | zero => exact ⟨fun hlt => absurd hlt (Nat.lt_irrefl 0), fun _ => ⟨a, rfl, .nil ha⟩⟩
    | succ left =>
      refine ⟨fun _ => ?_, fun hle => absurd hle (Nat.not_succ_le_zero left)⟩
      rw [readCounts, nextElement_eq_closed_iff.mpr ⟨a, ha, rfl⟩]
      rfl
  | @cons first l v t n ns hl hv h ih =>
    cases left with
    | zero =>
      refine ⟨fun hlt => absurd hlt (Nat.not_lt_zero _), fun _ => ⟨l ++ (v ++ t), rfl, ?_⟩⟩
      rw [Nat.add_zero, hfirst]
      exact .cons hl hv h
    | succ left =>
      obtain ⟨hshort, hlong⟩ := @ih (done + 1) left (by simp)
      have hcount : readCount (v ++ (t ++ ']' :: r)) = .ok (n, t ++ ']' :: r) :=
        readCount_eq_ok_iff.mpr ⟨[], v, rfl, spaces_nil, hv, h.endsNumber .array⟩
      obtain ⟨c, d, rfl, hc⟩ := hv.exists_cons
      have hnext : nextElement (decide (done = 0)) (l ++ (c :: d ++ t) ++ ']' :: r) =
          .ok (.part (c :: d ++ (t ++ ']' :: r))) := by
        rw [hfirst, List.append_assoc, List.append_assoc]
        exact nextElement_append hl (isSpace_of_isDigit hc) (isDigit_ne hc rfl)
      rw [readCounts_part hnext, hcount, List.length_cons]
      refine ⟨fun hlt => ?_, fun hle => ?_⟩
      · simp only [bind, Except.bind, hshort (Nat.lt_of_succ_lt_succ hlt)]
        rw [Nat.add_assoc, Nat.add_comm 1]
        rfl
      · obtain ⟨t', hread, hrest⟩ := hlong (by omega)
        refine ⟨t', by simp only [bind, Except.bind, hread]; rfl, ?_⟩
        rwa [show done + (left + 1) = done + 1 + left by omega]

/-- **The reader comes to the verdict on an array.** -/
theorem readArray_counts (h : Listed CountText true ns t) : ∃ o, ArrayVerdict ns o ∧
    (readArray (t ++ ']' :: r)).mapError ReadError.report = o.map fun p => (p, r) := by
  have hfirst : decide ((0 : Nat) = 0) = true := rfl
  obtain ⟨hshort, hlong⟩ := @readCounts_listed ns t r true 0 6 h hfirst
  rcases Nat.lt_trichotomy ns.length 6 with hlt | heq | hgt
  · refine ⟨_, .fewer hlt, ?_⟩
    simp only [readArray, hshort hlt, Nat.zero_add]
    rfl
  · have htake : (ns.take 3).length = 3 := by rw [List.length_take]; omega
    have hdrop : (ns.drop 3).length = 3 := by rw [List.length_drop]; omega
    obtain ⟨a, b, c, hfront⟩ := List.length_eq_three.mp htake
    obtain ⟨d, e, f, hback⟩ := List.length_eq_three.mp hdrop
    obtain rfl : ns = [a, b, c, d, e, f] := by
      rw [← List.take_append_drop 3 ns, hfront, hback]
      rfl
    have hread : readArray (t ++ ']' :: r) = .ok (⟨a, b, c, d, e, f⟩, r) :=
      readArray_eq_ok_iff.mpr ⟨t, rfl, h⟩
    refine ⟨_, .six, ?_⟩
    rw [hread]
    rfl
  · obtain ⟨t', hread, hrest⟩ := hlong hgt.le
    have hend : scanArrayEnd (t' ++ ']' :: r) = .error .malformed := by
      generalize hdrop : ns.drop 6 = rest at hrest
      cases hrest with
      | nil => simp at hdrop; omega
      | cons hl =>
        cases hl with
        | later ha =>
          rw [scanArrayEnd, List.append_assoc, List.append_assoc, skipSpaces_append ha, List.cons_append,
            skipSpaces_cons rfl]
          rfl
    refine ⟨_, .more hgt, ?_⟩
    simp only [readArray, hread, hend]
    rfl

theorem ArrayVerdict.unique {o o' : Except Report Profile} (h : ArrayVerdict ns o)
    (h' : ArrayVerdict ns o') : o = o' := by
  cases h with
  | six =>
    cases h' with
    | six => rfl
    | fewer h => exact absurd h (Nat.lt_irrefl 6)
    | more h => exact absurd h (Nat.lt_irrefl 6)
  | fewer h =>
    cases h' with
    | six => exact absurd h (Nat.lt_irrefl 6)
    | fewer => rfl
    | more h' => exact absurd h' (Nat.lt_asymm h)
  | more h =>
    cases h' with
    | six => exact absurd h (Nat.lt_irrefl 6)
    | fewer h' => exact absurd h' (Nat.lt_asymm h)
    | more => rfl

end Arrays

/-! ## Records at the end of a list -/

section Records
variable {ps : List Profile} {s t v w r : List Char} {first : Bool} {c : Char}

/-- The reader comes to the next record when it has read those before it. -/
theorem readRecords_preceded (h : Preceded first ps t) (hspace : isSpace c = false) (hc : c ≠ ']') :
    readRecords first (t ++ c :: w) = readRecord (c :: w) >>= fun x =>
      (readRecords false x.2).map fun q => (ps ++ x.1 :: q.1, q.2) := by
  induction h with
  | lead hl => exact readRecords_part (nextElement_append hl hspace hc)
  | @record first l v t p ps hl hp h ih =>
    obtain ⟨d, v, rfl, hspace', hd⟩ := hp.exists_cons
    have hnext : nextElement first (l ++ (d :: v ++ t) ++ c :: w) =
        .ok (.part (d :: v ++ (t ++ c :: w))) := by
      rw [List.append_assoc, List.append_assoc]
      exact nextElement_append hl hspace' hd
    rw [readRecords_of_part hnext (readRecord_append hp), ih]
    rcases readRecord (c :: w) with e | ⟨q, r⟩
    · rfl
    · simp only [bind, Except.bind]
      cases readRecords false r <;> rfl

theorem OpenText.readDocument_eq (h : OpenText ps s) (hspace : isSpace c = false) (hc : c ≠ ']') :
    readDocument (s ++ c :: w) = readRecord (c :: w) >>= fun x =>
      readRecords false x.2 >>= fun q =>
        if skipSpaces q.2 = [] then .ok (ps ++ x.1 :: q.1) else fault .malformed := by
  obtain ⟨a, t, rfl, ha, ht⟩ := h
  have hs : skipSpaces (a ++ '[' :: t ++ c :: w) = '[' :: (t ++ c :: w) := by
    rw [List.append_assoc, skipSpaces_append ha, List.cons_append, skipSpaces_cons rfl]
  simp only [readDocument, hs, readRecords_preceded ht hspace hc, if_true]
  rcases readRecord (c :: w) with e | ⟨p, r⟩
  · rfl
  · simp only [bind, Except.bind]
    cases readRecords false r <;> rfl

/-- What the reader says of a record is what becomes of it. -/
theorem OpenText.outcome (h : OpenText ps s) (hspace : isSpace c = false) (hc : c ≠ ']')
    {o : Except Report Profile}
    (ho : ∀ r, (readRecord (c :: w ++ r)).mapError ReadError.report = o.map fun p => (p, r)) :
    Outcome ps (s ++ c :: w) o := by
  cases o with
  | error report =>
    intro r
    have hrecord := ho r
    rcases hread : readRecord (c :: w ++ r) with e | q
    · rw [hread] at hrecord
      cases hrecord
      rw [answer, readAll, String.toList_ofList, List.append_assoc, List.cons_append,
        h.readDocument_eq hspace hc, ← List.cons_append, hread]
      rfl
    · rw [hread] at hrecord
      cases hrecord
  | ok p =>
    intro a b ha hb
    have hrecord := ho (a ++ ']' :: b)
    rcases hread : readRecord (c :: w ++ (a ++ ']' :: b)) with e | q
    · rw [hread] at hrecord
      cases hrecord
    · rw [hread] at hrecord
      cases hrecord
      have hclosed : readRecords false (a ++ ']' :: b) = .ok ([], b) :=
        readRecords_of_closed (nextElement_eq_closed_iff.mpr ⟨a, ha, rfl⟩)
      rw [answer, readAll, String.toList_ofList, List.append_assoc, List.cons_append,
        h.readDocument_eq hspace hc, ← List.cons_append, hread]
      simp only [bind, Except.bind, hclosed, skipSpaces_eq_nil_iff.mpr hb, if_true]
      rfl

/-- **What becomes of a record of integers** behind records that are in order: there is one verdict on it,
and this is what the reader answers. -/
theorem record_outcome (h : OpenText ps s) :
    (∀ ms t, Listed IntegerMember true ms t → (∃ o, ObjectVerdict ms o) ∧
      ∀ o, ObjectVerdict ms o → Outcome ps (s ++ '\x7b' :: (t ++ ['\x7d'])) o) ∧
    (∀ ns t, Listed CountText true ns t → (∃ o, ArrayVerdict ns o) ∧
      ∀ o, ArrayVerdict ns o → Outcome ps (s ++ '[' :: (t ++ [']'])) o) := by
  refine ⟨fun ms t ht => ?_, fun ns t ht => ?_⟩
  · have hread (r : List Char) := readMembers_integers (r := r) ht Seen.tracks_nil unrefused_nil
    refine ⟨(hread []).imp fun o ho => ho.1, fun o hverdict => ?_⟩
    refine h.outcome rfl (by decide) fun r => ?_
    obtain ⟨o', hverdict', hmembers⟩ := hread r
    rw [hverdict.unique hverdict', readRecord, List.cons_append, skipSpaces_cons rfl, List.append_assoc,
      List.singleton_append]
    exact hmembers
  · have hread (r : List Char) := readArray_counts (r := r) ht
    refine ⟨(hread []).imp fun o ho => ho.1, fun o hverdict => ?_⟩
    refine h.outcome rfl (by decide) fun r => ?_
    obtain ⟨o', hverdict', harray⟩ := hread r
    rw [hverdict.unique hverdict', readRecord, List.cons_append, skipSpaces_cons rfl, List.append_assoc,
      List.singleton_append]
    exact harray

/-- A member without any spaces, under a name that needs no escapes. -/
theorem IntegerMember.compact (name : String) (k : Int) {v : List Char}
    (hname : name.toList.all (fun c => decide (IsPlain c)) = true) (hv : IntegerText k v)
    (hlow : -(2 ^ 63) ≤ k) (hhigh : k < 2 ^ 64) :
    IntegerMember (name, k) ('"' :: (name.toList ++ '"' :: ([] ++ ':' :: ([] ++ v)))) :=
  .mk (.self hname) spaces_nil spaces_nil hv hlow hhigh

/-- A count that is too large stands between two counts of the cycles, and it is what is wrong first. -/
theorem record_outcome_crowded :
    OpenText [⟨1, 2, 3, 4, 5, 6⟩] "[[1,2,3,4,5,6],".toList ∧
      Outcome [⟨1, 2, 3, 4, 5, 6⟩] ("[[1,2,3,4,5,6],".toList ++
          "\x7b\"cycles\":7,\"x\":-1,\"elements\":4294967296,\"cycles\":8\x7d".toList)
        (.error (.data "invalid value: integer `4294967296`, expected u32")) := by
  have hopen : OpenText [⟨1, 2, 3, 4, 5, 6⟩] "[[1,2,3,4,5,6],".toList := by
    refine ⟨[], _, ?_, spaces_nil, .record (.first spaces_nil) (.array (listed_compactCounts true _))
      (.lead (.later spaces_nil spaces_nil))⟩
    rfl
  have hmembers := Listed.cons (.first spaces_nil)
    (IntegerMember.compact "cycles" 7 rfl .natural (by decide) (by decide))
    (.cons (.later spaces_nil spaces_nil)
      (IntegerMember.compact "x" (-1) rfl (.negative Nat.one_pos) (by decide) (by decide))
    (.cons (.later spaces_nil spaces_nil)
      (IntegerMember.compact "elements" 4294967296 rfl .natural (by decide) (by decide))
    (.cons (.later spaces_nil spaces_nil)
      (IntegerMember.compact "cycles" 8 rfl .natural (by decide) (by decide))
    (.nil spaces_nil))))
  have hbefore : Unrefused [("cycles", 7), ("x", -1)] := by
    refine (unrefused_nil.snoc fun message => ?_).snoc fun message => ?_
    · exact not_refused_of_new (f := .cycles) (by decide) (by decide)
    · exact not_refused_of_other fun f => by cases f <;> decide
  refine ⟨hopen, ((record_outcome hopen).1 _ _ hmembers).2 _ ?_⟩
  exact @ObjectVerdict.refused _ [("cycles", 7), ("x", -1)] _ _ _ rfl hbefore
    (.outOfRange (f := .elements) (by decide) (by decide))

end Records

end Dataflow.Profile
