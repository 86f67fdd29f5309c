import Dataflow.Profile.Reader
import Dataflow.Proofs.Json.Parts
import Mathlib.Data.List.Nodup

/-!
# The format of a list of profiling records

`DocumentText` says which texts are a list of records, and of which.  A count is written in decimal
digits and in no other way.  A record is an array of its counts in declaration order, or an object that
has each of the fields once, in any order, with names that may use escapes; members of other names may
stand anywhere among them, with any values.

`readAll` accepts exactly these texts and answers with exactly these records (`readAll_eq_ok_iff`).  The
proof goes through the reader from the inside: each of its functions succeeds on a text that begins with
what it is to read, and answers with what is written there.
-/

namespace Dataflow.Profile

open Json

/-! ## The format -/

/-- A count, written out. -/
def CountText (n : UInt32) (s : List Char) : Prop := s = Nat.toDigits 10 n.toNat

/-- The fields of a record with their counts, in declaration order. -/
def fields (p : Profile) : List (Field × UInt32) := Field.all.map fun f => (f, p.get f)

/-- A member of an object that is a record: a field with its count, or anything under another name. -/
inductive MemberText : Option (Field × UInt32) → List Char → Prop
  | field {f : Field} {n : UInt32} {b a c v : List Char} (hb : Spells b f.name.toList)
      (ha : Spaces a) (hc : Spaces c) (hv : CountText n v) :
      MemberText (some (f, n)) ('"' :: (b ++ '"' :: (a ++ ':' :: (c ++ v))))
  | other {name b a c v : List Char} (hb : Spells b name)
      (hname : ∀ f : Field, name ≠ f.name.toList) (ha : Spaces a) (hc : Spaces c)
      (hv : Written .value v) : MemberText none ('"' :: (b ++ '"' :: (a ++ ':' :: (c ++ v))))

/-- **A record**, in one of its two forms. -/
inductive RecordText : Profile → List Char → Prop
  | array {p : Profile} {s : List Char}
      (h : Listed CountText true (p.fields.map Prod.snd) s) : RecordText p ('[' :: (s ++ [']']))
  | object {p : Profile} {ms : List (Option (Field × UInt32))} {s : List Char}
      (h : Listed MemberText true ms s) (hfields : (ms.filterMap id).Perm p.fields) :
      RecordText p ('\x7b' :: (s ++ ['\x7d']))

/-- **A list of records.** -/
def DocumentText (ps : List Profile) (s : List Char) : Prop :=
  ∃ a t b, s = a ++ '[' :: (t ++ ']' :: b) ∧ Spaces a ∧ Listed RecordText true ps t ∧ Spaces b

/-! ## Counts -/

section Counts
variable {s r v a : List Char} {n : UInt32} {p : Profile}

theorem CountText.exists_cons (h : CountText n v) : ∃ c s, v = c :: s ∧ c.isDigit = true :=
  h ▸ whole_toDigits.exists_cons

theorem readCount_eq_ok_iff : readCount s = .ok (n, r) ↔
    ∃ a v, s = a ++ (v ++ r) ∧ Spaces a ∧ CountText n v ∧ EndsNumber r := by
  constructor
  · intro h
    unfold readCount at h
    split at h
    · cases h
    · rename_i c rest hs
      obtain ⟨a, ha, -, rfl⟩ := skipSpaces_eq_cons_iff.mp hs
      split at h
      · split at h
        · cases h
        · cases h
        · rename_i k rest' hnumber
          split at h
          · rename_i hk
            obtain ⟨m, rfl⟩ := Int.eq_ofNat_of_zero_le hk.1
            cases h
            obtain ⟨hdigits, hends, -⟩ := scanNumber_eq_natural_iff.mp hnumber
            have hlt : m < UInt32.size := by
              unfold UInt32.size
              omega
            have hm : (UInt32.ofNat m).toNat = m := UInt32.toNat_ofNat_of_lt' hlt
            refine ⟨a, _, by rw [hdigits], ha, ?_, hends⟩
            rw [CountText, Int.toNat_natCast, hm]
          · cases h
      · exact absurd h misplaced_ne_ok
  · rintro ⟨a, v, rfl, ha, hv, hr⟩
    obtain ⟨c, d, rfl, hc⟩ := hv.exists_cons
    have hs : skipSpaces (a ++ (c :: d ++ r)) = c :: (d ++ r) := by
      rw [skipSpaces_append ha, List.cons_append, skipSpaces_cons (isSpace_of_isDigit hc)]
    have hlt : n.toNat < 4294967296 := n.toNat_lt
    have hnumber : scanNumber (c :: (d ++ r)) = .ok (.integer n.toNat, r) :=
      scanNumber_eq_natural_iff.mpr ⟨by rw [← hv]; rfl, hr, by unfold wordLimit; omega⟩
    simp only [readCount, hs, hc, or_true, if_true, hnumber]
    rw [if_pos (by omega), Int.toNat_natCast, UInt32.ofNat_toNat]

theorem readCounts_part {done left : Nat} {rest : List Char}
    (h : nextElement (done = 0) s = .ok (.part rest)) :
    readCounts done (left + 1) s = readCount rest >>= fun x =>
      (readCounts (done + 1) left x.2).map fun q => (x.1 :: q.1, q.2) := by
  rw [readCounts, h]
  simp only
  split
  · rename_i hcount
    rw [hcount]
    rfl
  · rename_i hcount
    rw [hcount]
    rfl

/-- The counts of an array and its end. -/
theorem listed_of_readCounts {done left : Nat} {ns : List UInt32} {s' : List Char}
    (h : readCounts done left s = .ok (ns, s')) (hend : scanArrayEnd s' = .ok r) :
    ∃ t, s = t ++ ']' :: r ∧ Listed CountText (decide (done = 0)) ns t := by
  induction left generalizing done s ns with
  | zero =>
    cases h
    obtain ⟨a, ha, rfl⟩ := scanArrayEnd_eq_ok_iff.mp hend
    exact ⟨a, rfl, .nil ha⟩
  | succ left ih =>
    rw [readCounts] at h
    split at h
    · cases h
    · cases h
    · rename_i rest hnext
      obtain ⟨l, rfl, hl⟩ := lead_of_nextElement hnext
      split at h
      · cases h
      · rename_i n rest' hcount
        obtain ⟨a, v, rfl, ha, hv, -⟩ := readCount_eq_ok_iff.mp hcount
        cases hrest : readCounts (done + 1) left rest' with
        | error e =>
          rw [hrest] at h
          cases h
        | ok q =>
          rw [hrest] at h
          cases h
          obtain ⟨t, rfl, ht⟩ := ih hrest
          exact ⟨l ++ a ++ (v ++ t), by simp, .cons (hl.append ha) hv ht⟩

theorem readCounts_append {first : Bool} {ns : List UInt32} {t : List Char}
    (h : Listed CountText first ns t) {done : Nat} (hfirst : decide (done = 0) = first) :
    ∃ s', readCounts done ns.length (t ++ ']' :: r) = .ok (ns, s') ∧ scanArrayEnd s' = .ok r := by
  induction h generalizing done with
  | nil ha => exact ⟨_, rfl, scanArrayEnd_eq_ok_iff.mpr ⟨_, ha, rfl⟩⟩
  | @cons first l v t n ns hl hv h ih =>
    obtain ⟨s', hcounts, hend⟩ := @ih (done + 1) (by simp)
    have hcount : readCount (v ++ (t ++ ']' :: r)) = .ok (n, t ++ ']' :: r) :=
      readCount_eq_ok_iff.mpr ⟨[], v, rfl, spaces_nil, hv, h.endsNumber .array⟩
    obtain ⟨c, d, rfl, hc⟩ := hv.exists_cons
    have hnext : nextElement (decide (done = 0)) (l ++ (c :: d ++ t) ++ ']' :: r) =
        .ok (.part (c :: d ++ (t ++ ']' :: r))) := by
      rw [hfirst, List.append_assoc, List.append_assoc]
      exact nextElement_append hl (isSpace_of_isDigit hc) (isDigit_ne hc rfl)
    refine ⟨s', ?_, hend⟩
    rw [List.length_cons, readCounts, hnext]
    simp only [hcount, hcounts]
    rfl

theorem ofCounts?_eq_some_iff {ns : List UInt32} :
    ofCounts? ns = some p ↔ ns = p.fields.map Prod.snd := by
  constructor
  · intro h
    unfold ofCounts? at h
    split at h
    · cases h
      rfl
    · cases h
  · rintro rfl
    rfl

theorem readArray_eq_ok_iff : readArray s = .ok (p, r) ↔
    ∃ t, s = t ++ ']' :: r ∧ Listed CountText true (p.fields.map Prod.snd) t := by
  constructor
  · intro h
    unfold readArray at h
    split at h
    · cases h
    · rename_i ns s' hcounts
      split at h
      · cases h
      · rename_i hend hrecord
        cases h
        rw [← ofCounts?_eq_some_iff.mp hrecord]
        exact listed_of_readCounts hcounts hend
      · cases h
  · rintro ⟨t, rfl, ht⟩
    have hfirst : decide ((0 : Nat) = 0) = true := rfl
    obtain ⟨s', hcounts, hend⟩ := readCounts_append (r := r) ht hfirst
    replace hcounts : readCounts 0 6 (t ++ ']' :: r) = .ok (p.fields.map Prod.snd, s') := hcounts
    simp only [readArray, hcounts, hend, ofCounts?_eq_some_iff.mpr rfl]

end Counts

/-! ## The fields of an object -/

section Fields
variable {seen : Seen} {f : Field} {n : UInt32} {p : Profile} {name : List Char}

/-- No field has been seen twice. -/
def Seen.Distinct (seen : Seen) : Prop := (seen.map Prod.fst).Nodup

theorem distinct_fields : Seen.Distinct p.fields := by
  have hall : p.fields.map Prod.fst = Field.all := rfl
  rw [Seen.Distinct, hall]
  decide

theorem mem_fields_iff : (f, n) ∈ p.fields ↔ p.get f = n := by
  simp [fields, Field.mem_all]

theorem lookup_eq_none_iff : seen.lookup f = none ↔ f ∉ seen.map Prod.fst := by
  rw [List.lookup_eq_none_iff, List.mem_map]
  constructor
  · rintro h ⟨q, hq, rfl⟩
    simpa using h q hq
  · intro h q hq
    rw [bne_iff_ne]
    rintro rfl
    exact h ⟨q, hq, rfl⟩

theorem Seen.Distinct.lookup_eq_some_iff (h : seen.Distinct) :
    seen.lookup f = some n ↔ (f, n) ∈ seen := by
  induction seen with
  | nil => simp
  | cons q seen ih =>
    obtain ⟨g, m⟩ := q
    obtain ⟨hnew, hdistinct⟩ := List.nodup_cons.mp h
    by_cases hf : f = g
    · subst hf
      have hmem : (f, n) ∉ seen := fun hmem => hnew (List.mem_map.mpr ⟨_, hmem, rfl⟩)
      simp [hmem, eq_comm]
    · have hne : (f == g) = false := by simpa using hf
      simp [List.lookup_cons, hne, hf, ih hdistinct]

theorem Seen.Distinct.append {m : Option (Field × UInt32)} (h : seen.Distinct)
    (hnew : ∀ q ∈ m, seen.lookup q.1 = none) : Seen.Distinct (seen ++ m.toList) := by
  cases m with
  | none =>
    rw [Option.toList_none, List.append_nil]
    exact h
  | some q =>
    have hq : q.1 ∉ seen.map Prod.fst := lookup_eq_none_iff.mp (hnew q rfl)
    rw [Seen.Distinct, List.map_append, Option.toList_some, List.map_singleton]
    exact List.nodup_append_comm.mpr (List.nodup_cons.mpr ⟨hq, h⟩)

theorem Seen.Distinct.lookup_eq_none {q : Field × UInt32} {later : Seen}
    (h : Seen.Distinct (seen ++ q :: later)) : seen.lookup q.1 = none := by
  rw [Seen.Distinct, List.map_append, List.map_cons] at h
  refine lookup_eq_none_iff.mpr fun hmem => ?_
  exact (List.nodup_append.mp h).2.2 q.1 hmem q.1 List.mem_cons_self rfl

theorem need_eq_ok_iff : seen.need f = .ok n ↔ seen.lookup f = some n := by
  unfold Seen.need
  split
  · rename_i m h
    simp [h]
  · rename_i h
    simp [h, refuse]

theorem record_eq_ok_iff : seen.record = .ok p ↔ ∀ f, seen.lookup f = some (p.get f) := by
  constructor
  · intro h
    unfold Seen.record at h
    simp only [bind_eq_ok, need_eq_ok_iff, pure_eq_ok] at h
    obtain ⟨e, he, v, hv, r, hr, t, ht, k, hk, c, hc, rfl⟩ := h
    intro f
    cases f
    · exact he
    · exact hv
    · exact hr
    · exact ht
    · exact hk
    · exact hc
  · intro h
    unfold Seen.record
    simp only [bind_eq_ok, need_eq_ok_iff, pure_eq_ok]
    exact ⟨_, h .elements, _, h .valids, _, h .readies, _, h .transfers, _, h .packets, _,
      h .cycles, rfl⟩

/-- **A record is complete** exactly if its fields, in some order, are what has been seen. -/
theorem Seen.Distinct.record_eq_ok_iff_perm (h : seen.Distinct) :
    seen.record = .ok p ↔ seen.Perm p.fields := by
  have hseen : seen.Nodup := List.Nodup.of_map Prod.fst h
  have hfields : p.fields.Nodup := List.Nodup.of_map Prod.fst distinct_fields
  rw [record_eq_ok_iff, List.perm_ext_iff_of_nodup hseen hfields]
  constructor
  · rintro hlookup ⟨f, n⟩
    rw [← h.lookup_eq_some_iff, mem_fields_iff, hlookup f, Option.some.injEq]
  · intro hmem f
    rw [h.lookup_eq_some_iff, hmem, mem_fields_iff]

theorem distinct_of_perm (h : seen.Perm p.fields) : seen.Distinct :=
  (h.map Prod.fst).nodup_iff.mpr distinct_fields

theorem ofName?_eq_some_iff :
    Field.ofName? (String.ofList name) = some f ↔ name = f.name.toList := by
  constructor
  · intro h
    have hname : f.name = String.ofList name := by simpa using List.find?_some h
    rw [hname, String.toList_ofList]
  · rintro rfl
    rw [String.ofList_toList]
    exact Field.ofName?_name f

end Fields

/-! ## Members -/

section Members
variable {seen seen' : Seen} {s r v : List Char} {p : Profile} {m : Option (Field × UInt32)}

/-- What follows the name of a field is a count, if the field is new. -/
theorem readField_eq_ok_iff {f : Field} : readField seen f s = .ok (seen', r) ↔
    seen.lookup f = none ∧ ∃ n a c v, s = a ++ ':' :: (c ++ (v ++ r)) ∧ Spaces a ∧ Spaces c ∧
      CountText n v ∧ EndsNumber r ∧ seen' = seen ++ [(f, n)] := by
  unfold readField
  constructor
  · intro h
    split at h
    · cases h
    · rename_i hnew
      refine ⟨Option.not_isSome_iff_eq_none.mp hnew, ?_⟩
      split at h
      · cases h
      · rename_i rest hcolon
        obtain ⟨a, ha, rfl⟩ := scanColon_eq_ok_iff.mp hcolon
        cases hcount : readCount rest with
        | error e =>
          rw [hcount] at h
          cases h
        | ok q =>
          rw [hcount] at h
          cases h
          obtain ⟨c, v, rfl, hc, hv, hends⟩ := readCount_eq_ok_iff.mp hcount
          exact ⟨q.1, a, c, v, rfl, ha, hc, hv, hends, rfl⟩
  · rintro ⟨hnew, n, a, c, v, rfl, ha, hc, hv, hends, rfl⟩
    have hcolon : scanColon (a ++ ':' :: (c ++ (v ++ r))) = .ok (c ++ (v ++ r)) :=
      scanColon_eq_ok_iff.mpr ⟨a, ha, rfl⟩
    have hcount : readCount (c ++ (v ++ r)) = .ok (n, r) :=
      readCount_eq_ok_iff.mpr ⟨c, v, rfl, hc, hv, hends⟩
    simp only [hnew, hcolon, hcount]
    rfl

/-- What follows another name is any value. -/
theorem written_of_skipMember (h : skipMember s = .ok r) :
    ∃ a c v, s = a ++ ':' :: (c ++ v ++ r) ∧ Spaces a ∧ Spaces c ∧ Written .value v := by
  unfold skipMember at h
  split at h
  · cases h
  · rename_i rest hcolon
    obtain ⟨a, ha, rfl⟩ := scanColon_eq_ok_iff.mp hcolon
    obtain ⟨c, v, rfl, hc, hv⟩ := written_of_skipValue h
    exact ⟨a, c, v, rfl, ha, hc, hv⟩

theorem skipMember_append {a c v : List Char} (ha : Spaces a) (hc : Spaces c)
    (hv : Written .value v) (hr : EndsNumber r) :
    skipMember (a ++ ':' :: (c ++ (v ++ r))) = .ok r := by
  have hcolon : scanColon (a ++ ':' :: (c ++ (v ++ r))) = .ok (c ++ (v ++ r)) :=
    scanColon_eq_ok_iff.mpr ⟨a, ha, rfl⟩
  rw [← List.append_assoc c] at hcolon ⊢
  simp only [skipMember, hcolon]
  exact skipValue_append hc hv hr

/-- What is read is a member, and it was not there before. -/
theorem member_of_readMember (h : readMember seen s = .ok (seen', r)) :
    ∃ m v, '"' :: s = v ++ r ∧ MemberText m v ∧ seen' = seen ++ m.toList ∧
      ∀ q ∈ m, seen.lookup q.1 = none := by
  unfold readMember at h
  split at h
  · cases h
  · rename_i name rest hname
    obtain ⟨b, rfl, hb⟩ := scanString_eq_ok_iff.mp hname
    split at h
    · rename_i f hfield
      obtain rfl := ofName?_eq_some_iff.mp hfield
      obtain ⟨hnew, n, a, c, v, rfl, ha, hc, hv, -, rfl⟩ := readField_eq_ok_iff.mp h
      refine ⟨some (f, n), _, by simp, .field hb ha hc hv, rfl, fun q hq => ?_⟩
      obtain rfl := Option.some.inj hq
      exact hnew
    · rename_i hother
      cases hskip : skipMember rest with
      | error e =>
        rw [hskip] at h
        cases h
      | ok r' =>
        rw [hskip] at h
        cases h
        obtain ⟨a, c, v, rfl, ha, hc, hv⟩ := written_of_skipMember hskip
        refine ⟨none, _, by simp, .other hb (fun f hf => ?_) ha hc hv, by simp,
          fun q hq => nomatch hq⟩
        rw [ofName?_eq_some_iff.mpr hf] at hother
        cases hother

theorem readMember_append (hm : MemberText m ('"' :: v)) (hr : EndsNumber r)
    (hnew : ∀ q ∈ m, seen.lookup q.1 = none) :
    readMember seen (v ++ r) = .ok (seen ++ m.toList, r) := by
  cases hm with
  | @field f n b a c v hb ha hc hv =>
    have hname : scanString (b ++ '"' :: (a ++ ':' :: (c ++ v)) ++ r) =
        .ok (f.name.toList, a ++ ':' :: (c ++ v) ++ r) :=
      scanString_eq_ok_iff.mpr ⟨b, by simp, hb⟩
    have hfield : readField seen f (a ++ ':' :: (c ++ v) ++ r) = .ok (seen ++ [(f, n)], r) :=
      readField_eq_ok_iff.mpr ⟨hnew (f, n) rfl, n, a, c, v, by simp, ha, hc, hv, hr, rfl⟩
    simp only [readMember, hname, ofName?_eq_some_iff.mpr rfl, hfield]
    rfl
  | @other name b a c v hb hother ha hc hv =>
    have hname : scanString (b ++ '"' :: (a ++ ':' :: (c ++ v)) ++ r) =
        .ok (name, a ++ ':' :: (c ++ v) ++ r) :=
      scanString_eq_ok_iff.mpr ⟨b, by simp, hb⟩
    have hfield : Field.ofName? (String.ofList name) = none := by
      rw [Option.eq_none_iff_forall_ne_some]
      exact fun f hf => hother f (ofName?_eq_some_iff.mp hf)
    have hskip : skipMember (a ++ ':' :: (c ++ v) ++ r) = .ok r := by
      simpa using skipMember_append ha hc hv hr
    simp only [readMember, hname, hfield, hskip]
    simp [lift, Except.map]

theorem MemberText.exists_quote (h : MemberText m v) : ∃ w, v = '"' :: w := by
  cases h with
  | field => exact ⟨_, rfl⟩
  | other => exact ⟨_, rfl⟩

theorem append_filterMap_cons {ms : List (Option (Field × UInt32))} :
    seen ++ (m :: ms).filterMap id = seen ++ m.toList ++ ms.filterMap id := by
  cases m <;> simp

/-- How members are read, without the evidence that the text gets shorter. -/
theorem readMembers_eq (first : Bool) (seen : Seen) (s : List Char) :
    readMembers first seen s = match nextMember first s with
      | .error f => fault f
      | .ok (.closed rest) => seen.record.map fun p => (p, rest)
      | .ok (.part rest) => match readMember seen rest with
        | .error e => .error e
        | .ok (seen', rest') => readMembers false seen' rest' := by
  rw [readMembers]
  split
  · rename_i h
    rw [h]
  · rename_i h
    rw [h]
  · rename_i h
    rw [h]
    split
    · rename_i hm
      simp only [hm]
    · rename_i hm
      simp only [hm]

theorem readMembers_of_fault {first : Bool} {f : Fault} (h : nextMember first s = .error f) :
    readMembers first seen s = fault f := by
  rw [readMembers_eq, h]

theorem readMembers_of_closed {first : Bool} (h : nextMember first s = .ok (.closed r)) :
    readMembers first seen s = seen.record.map fun p => (p, r) := by
  rw [readMembers_eq, h]

theorem readMembers_of_part {first : Bool} {rest : List Char}
    (h : nextMember first s = .ok (.part rest)) (hm : readMember seen rest = .ok (seen', r)) :
    readMembers first seen s = readMembers false seen' r := by
  rw [readMembers_eq, h]
  simp only [hm]

theorem readMembers_of_refused {first : Bool} {rest : List Char} {e : ReadError}
    (h : nextMember first s = .ok (.part rest)) (hm : readMember seen rest = .error e) :
    readMembers first seen s = .error e := by
  rw [readMembers_eq, h]
  simp only [hm]

/-- What is read are members among which each field is once, together with those seen before. -/
theorem listed_of_readMembers {first : Bool} (hseen : seen.Distinct)
    (h : readMembers first seen s = .ok (p, r)) :
    ∃ ms t, s = t ++ '\x7d' :: r ∧ Listed MemberText first ms t ∧
      (seen ++ ms.filterMap id).Perm p.fields := by
  fun_induction readMembers first seen s with
  | case1 => cases h
  | case2 first seen s rest hnext =>
    obtain ⟨a, ha, rfl⟩ := nextMember_eq_closed_iff.mp hnext
    cases hrecord : seen.record with
    | error e =>
      rw [hrecord] at h
      cases h
    | ok q =>
      rw [hrecord] at h
      cases h
      refine ⟨[], a, rfl, .nil ha, ?_⟩
      rw [List.filterMap_nil, List.append_nil]
      exact hseen.record_eq_ok_iff_perm.mp hrecord
  | case3 => cases h
  | case4 first seen s rest hnext seen' rest' hmember ih =>
    obtain ⟨l, rfl, hl⟩ := nextMember_eq_part_iff.mp hnext
    obtain ⟨m, v, hv, hm, rfl, hnew⟩ := member_of_readMember hmember
    obtain ⟨ms, t, rfl, ht, hperm⟩ := ih (hseen.append hnew) h
    refine ⟨m :: ms, l ++ (v ++ t), ?_, .cons hl hm ht, ?_⟩
    · rw [hv]
      simp
    · rw [append_filterMap_cons]
      exact hperm

theorem readMembers_append {first : Bool} {ms : List (Option (Field × UInt32))} {t : List Char}
    (h : Listed MemberText first ms t) {seen : Seen}
    (hperm : (seen ++ ms.filterMap id).Perm p.fields) :
    readMembers first seen (t ++ '\x7d' :: r) = .ok (p, r) := by
  induction h generalizing seen with
  | nil ha =>
    rw [readMembers_of_closed (nextMember_eq_closed_iff.mpr ⟨_, ha, rfl⟩)]
    rw [List.filterMap_nil, List.append_nil] at hperm
    rw [(distinct_of_perm hperm).record_eq_ok_iff_perm.mpr hperm]
    rfl
  | @cons first l v t m ms hl hm h ih =>
    have hdistinct := distinct_of_perm hperm
    have hnew : ∀ q ∈ m, seen.lookup q.1 = none := by
      rintro q rfl
      exact hdistinct.lookup_eq_none
    obtain ⟨w, rfl⟩ := hm.exists_quote
    have hnext : nextMember first (l ++ ('"' :: w ++ t) ++ '\x7d' :: r) =
        .ok (.part (w ++ (t ++ '\x7d' :: r))) :=
      nextMember_eq_part_iff.mpr ⟨l, by simp, hl⟩
    rw [readMembers_of_part hnext (readMember_append hm (h.endsNumber .object) hnew)]
    rw [append_filterMap_cons] at hperm
    exact ih hperm

end Members

/-! ## Records and lists of records -/

section Records
variable {s r v t : List Char} {p : Profile} {ps : List Profile} {first : Bool}

/-- What is read is a record. -/
theorem record_of_readRecord (h : readRecord s = .ok (p, r)) :
    ∃ a v, s = a ++ (v ++ r) ∧ Spaces a ∧ RecordText p v := by
  unfold readRecord at h
  split at h
  · cases h
  · rename_i c rest hs
    obtain ⟨a, ha, -, rfl⟩ := skipSpaces_eq_cons_iff.mp hs
    split at h
    · rename_i hc
      subst hc
      obtain ⟨t, rfl, ht⟩ := readArray_eq_ok_iff.mp h
      exact ⟨a, '[' :: (t ++ [']']), by simp, ha, .array ht⟩
    · split at h
      · rename_i hc
        subst hc
        have hempty : Seen.Distinct [] := List.nodup_nil
        obtain ⟨ms, t, rfl, ht, hperm⟩ := listed_of_readMembers hempty h
        exact ⟨a, '\x7b' :: (t ++ ['\x7d']), by simp, ha, .object ht hperm⟩
      · exact absurd h misplaced_ne_ok

theorem readRecord_append (h : RecordText p v) : readRecord (v ++ r) = .ok (p, r) := by
  cases h with
  | @array t ht =>
    rw [readRecord, List.cons_append, skipSpaces_cons rfl, List.append_assoc, List.singleton_append]
    exact readArray_eq_ok_iff.mpr ⟨t, rfl, ht⟩
  | @object ms t ht hperm =>
    rw [readRecord, List.cons_append, skipSpaces_cons rfl, List.append_assoc, List.singleton_append]
    exact readMembers_append ht hperm

theorem RecordText.exists_cons (h : RecordText p v) :
    ∃ c s, v = c :: s ∧ isSpace c = false ∧ c ≠ ']' := by
  cases h with
  | array => exact ⟨'[', _, rfl, rfl, by decide⟩
  | object => exact ⟨'\x7b', _, rfl, rfl, by decide⟩

/-- How records are read, without the evidence that the text gets shorter. -/
theorem readRecords_eq (first : Bool) (s : List Char) :
    readRecords first s = match nextElement first s with
      | .error f => fault f
      | .ok (.closed rest) => .ok ([], rest)
      | .ok (.part rest) => readRecord rest >>= fun x =>
        (readRecords false x.2).map fun q => (x.1 :: q.1, q.2) := by
  rw [readRecords]
  split
  · rename_i h
    rw [h]
  · rename_i h
    rw [h]
  · rename_i h
    rw [h]
    split
    · rename_i hr
      simp only [hr]
      rfl
    · rename_i hr
      simp only [hr]
      rfl

theorem readRecords_of_fault {f : Fault} (h : nextElement first s = .error f) :
    readRecords first s = fault f := by
  rw [readRecords_eq, h]

theorem readRecords_of_closed (h : nextElement first s = .ok (.closed r)) :
    readRecords first s = .ok ([], r) := by
  rw [readRecords_eq, h]

theorem readRecords_part {rest : List Char} (h : nextElement first s = .ok (.part rest)) :
    readRecords first s = readRecord rest >>= fun x =>
      (readRecords false x.2).map fun q => (x.1 :: q.1, q.2) := by
  rw [readRecords_eq, h]

theorem readRecords_of_part {rest : List Char} (h : nextElement first s = .ok (.part rest))
    (hr : readRecord rest = .ok (p, r)) :
    readRecords first s = (readRecords false r).map fun q => (p :: q.1, q.2) := by
  rw [readRecords_part h, hr]
  rfl

/-- What is read are records and the bracket behind them. -/
theorem listed_of_readRecords (h : readRecords first s = .ok (ps, r)) :
    ∃ t, s = t ++ ']' :: r ∧ Listed RecordText first ps t := by
  fun_induction readRecords first s generalizing ps with
  | case1 => cases h
  | case2 first s rest hnext =>
    cases h
    obtain ⟨a, ha, rfl⟩ := nextElement_eq_closed_iff.mp hnext
    exact ⟨a, rfl, .nil ha⟩
  | case3 => cases h
  | case4 first s rest hnext p rest' hrecord ih =>
    obtain ⟨l, rfl, hl⟩ := lead_of_nextElement hnext
    obtain ⟨a, v, rfl, ha, hv⟩ := record_of_readRecord hrecord
    cases hrest : readRecords false rest' with
    | error e =>
      rw [hrest] at h
      cases h
    | ok q =>
      rw [hrest] at h
      cases h
      obtain ⟨t, rfl, ht⟩ := ih hrest
      exact ⟨l ++ a ++ (v ++ t), by simp, .cons (hl.append ha) hv ht⟩

theorem readRecords_append (h : Listed RecordText first ps t) :
    readRecords first (t ++ ']' :: r) = .ok (ps, r) := by
  induction h with
  | nil ha => exact readRecords_of_closed (nextElement_eq_closed_iff.mpr ⟨_, ha, rfl⟩)
  | @cons first l v t p ps hl hv h ih =>
    obtain ⟨c, w, rfl, hspace, hc⟩ := hv.exists_cons
    have hnext : nextElement first (l ++ (c :: w ++ t) ++ ']' :: r) =
        .ok (.part (c :: w ++ (t ++ ']' :: r))) := by
      rw [List.append_assoc, List.append_assoc]
      exact nextElement_append hl hspace hc
    rw [readRecords_of_part hnext (readRecord_append hv), ih]
    rfl

theorem readDocument_eq_ok_iff : readDocument s = .ok ps ↔ DocumentText ps s := by
  constructor
  · intro h
    unfold readDocument at h
    split at h
    · cases h
    · rename_i c rest hs
      obtain ⟨a, ha, -, rfl⟩ := skipSpaces_eq_cons_iff.mp hs
      split at h
      · rename_i hc
        subst hc
        split at h
        · cases h
        · rename_i records rest' hrecords
          split at h
          · rename_i hend
            cases h
            obtain ⟨t, rfl, ht⟩ := listed_of_readRecords hrecords
            exact ⟨a, t, rest', rfl, ha, ht, skipSpaces_eq_nil_iff.mp hend⟩
          · cases h
      · exact absurd h misplaced_ne_ok
  · rintro ⟨a, t, b, rfl, ha, ht, hb⟩
    have hs : skipSpaces (a ++ '[' :: (t ++ ']' :: b)) = '[' :: (t ++ ']' :: b) := by
      rw [skipSpaces_append ha, skipSpaces_cons rfl]
    simp only [readDocument, hs, readRecords_append ht, skipSpaces_eq_nil_iff.mpr hb, if_true]

/-- **The reader accepts exactly its format, and answers with exactly what is written.** -/
theorem readAll_eq_ok_iff {text : String} : readAll text = .ok ps ↔ DocumentText ps text.toList :=
  readDocument_eq_ok_iff

/-- Counts with commas between them, without any spaces. -/
def compactCounts : Bool → List UInt32 → List Char
  | _, [] => []
  | first, n :: ns =>
    (if first then [] else [',']) ++ (Nat.toDigits 10 n.toNat ++ compactCounts false ns)

theorem listed_compactCounts (first : Bool) (ns : List UInt32) :
    Listed CountText first ns (compactCounts first ns) := by
  induction ns generalizing first with
  | nil => exact .nil spaces_nil
  | cons n ns ih =>
    cases first with
    | true => exact .cons (.first spaces_nil) rfl (ih false)
    | false => exact .cons (.later spaces_nil spaces_nil) rfl (ih false)

/-- A field under its plain name, without any spaces. -/
theorem MemberText.compact (f : Field) (n : UInt32) : MemberText (some (f, n))
    ('"' :: (f.name.toList ++ '"' :: ([] ++ ':' :: ([] ++ Nat.toDigits 10 n.toNat)))) :=
  .field (.self (by cases f <;> rfl)) spaces_nil spaces_nil rfl

/-- A record whose fields are out of order, one of them under a name with an escape, and with a member
that is no field. -/
def shuffled : String :=
  "[\x7b\"x\":[\x7b\x7d],\"\\u0065lements\":1,\"cycles\":6," ++
    "\"valids\":2,\"packets\":5,\"readies\":3,\"transfers\":4\x7d]"

theorem readAll_shuffled : readAll shuffled = .ok [⟨1, 2, 3, 4, 5, 6⟩] := by
  have hother : MemberText none ['"', 'x', '"', ':', '[', '\x7b', '\x7d', ']'] :=
    .other (.self (s := ['x']) rfl) (fun f => by cases f <;> decide) spaces_nil spaces_nil
      (.full (e := .array) (.last .array spaces_nil (.empty (e := .object) spaces_nil) spaces_nil))
  have hescaped : Spells ['\\', 'u', '0', '0', '6', '5', 'l', 'e', 'm', 'e', 'n', 't', 's']
      (Field.name .elements).toList :=
    .escape (.unit ⟨'0', '0', '6', '5', 0, 0, 6, 5, rfl, rfl, rfl, rfl, rfl, rfl⟩ rfl rfl)
      (.self rfl)
  refine readAll_eq_ok_iff.mpr ⟨[], _, [], ?_, spaces_nil, .cons (.first spaces_nil) (.object
    (.cons (.first spaces_nil) hother
    (.cons (.later spaces_nil spaces_nil) (.field (n := 1) hescaped spaces_nil spaces_nil rfl)
    (.cons (.later spaces_nil spaces_nil) (.compact .cycles 6)
    (.cons (.later spaces_nil spaces_nil) (.compact .valids 2)
    (.cons (.later spaces_nil spaces_nil) (.compact .packets 5)
    (.cons (.later spaces_nil spaces_nil) (.compact .readies 3)
    (.cons (.later spaces_nil spaces_nil) (.compact .transfers 4)
    (.nil spaces_nil)))))))) (by decide)) (.nil spaces_nil), spaces_nil⟩
  rfl

end Records

end Dataflow.Profile
