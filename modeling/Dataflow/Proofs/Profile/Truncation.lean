import Dataflow.Proofs.Json.Cuts
import Dataflow.Proofs.Json.Documents
import Dataflow.Proofs.Profile.Format

/-!
# Lists of records that are cut off

A refusal of the class `Eof` says that the text ends too early.  It is said of the right texts
(`eof_of_cut_only`):

* Of a list of records whose objects have no members of other names, each beginning is refused in this way
  as long as the closing bracket of the list is missing.  A cut in a number leaves a number, or the minus
  sign of none, and the reader goes on; but there is nothing left to go on with.
* Of a complete document it is never said, whatever the document is.  Most documents are refused, and at any
  place, but at each of these places something is there to refuse.

Members of other names are left out of the first half because a number that nobody looks at has to be
complete: for the scanner that passes over it, the end of the text is no digit.
-/

namespace Dataflow.Profile

open Json

/-! ## Texts that can be cut off -/

/-- **A record without members of other names.** -/
inductive BareRecordText : Profile → List Char → Prop
  | array {p : Profile} {s : List Char}
      (h : Listed CountText true (p.fields.map Prod.snd) s) : BareRecordText p ('[' :: (s ++ [']']))
  | object {p : Profile} {ms : List (Option (Field × UInt32))} {s : List Char}
      (h : Listed MemberText true ms s) (hbare : none ∉ ms)
      (hfields : (ms.filterMap id).Perm p.fields) : BareRecordText p ('\x7b' :: (s ++ ['\x7d']))

/-- **A list of such records up to its closing bracket.** -/
def BareText (ps : List Profile) (s : List Char) : Prop :=
  ∃ a t, s = a ++ '[' :: t ∧ Spaces a ∧ Listed BareRecordText true ps t

theorem BareRecordText.recordText {p : Profile} {v : List Char} (h : BareRecordText p v) :
    RecordText p v := by
  cases h with
  | array h => exact .array h
  | object h _ hfields => exact .object h hfields

theorem BareText.documentText {ps : List Profile} {s b : List Char} (h : BareText ps s)
    (hb : Spaces b) : DocumentText ps (s ++ ']' :: b) := by
  obtain ⟨a, t, rfl, ha, ht⟩ := h
  exact ⟨a, t, b, by simp, ha, ht.imp fun _ _ => BareRecordText.recordText, hb⟩

theorem category_eq_eof_iff {e : ReadError} : e.category = "Eof" ↔ e = .text .truncated := by
  rcases e with (_ | _) | _ <;> simp [ReadError.category]

/-! ## Counts that are cut off -/

section Counts
variable {u a c s t v : List Char} {n : UInt32} {ns : List UInt32} {p : Profile} {first : Bool}
  {done : Nat}

/-- What a cut leaves of a count is a count, if it leaves anything. -/
theorem CountText.of_isPrefix (hv : CountText n v) (hu : u <+: v) (hne : u ≠ []) :
    ∃ m, CountText m u := by
  obtain ⟨w, rfl⟩ := hu
  have hwhole : Whole (u ++ w) := hv ▸ whole_toDigits
  have hu : Whole u := hwhole.of_append hne
  have hn : Nat.ofDigitChars 10 (u ++ w) 0 = n.toNat := by
    rw [hv, Nat.ofDigitChars_ten_toDigits]
  have hle : Nat.ofDigitChars 10 u 0 ≤ n.toNat := by
    rw [← hn, Nat.ofDigitChars_append]
    exact le_ofDigitChars
  have hlt : Nat.ofDigitChars 10 u 0 < UInt32.size := Nat.lt_of_le_of_lt hle n.toNat_lt
  refine ⟨UInt32.ofNat (Nat.ofDigitChars 10 u 0), ?_⟩
  rw [CountText, UInt32.toNat_ofNat_of_lt' hlt, toDigits_of_whole hu]

theorem readCount_of_spaces (hu : Spaces u) : readCount u = .error (.text .truncated) := by
  rw [readCount, skipSpaces_eq_nil_iff.mpr hu]
  rfl

theorem readCount_cut (hc : Spaces c) (hv : CountText n v) (hu : Cut u (c ++ v)) :
    RunsOut (.text .truncated) (readCount u) := by
  rcases hu.cases with hspaces | ⟨d, u, rfl, hcut⟩
  · exact .inl (readCount_of_spaces (hc.of_isPrefix hspaces))
  · obtain ⟨m, hm⟩ := hv.of_isPrefix hcut.isPrefix (List.cons_ne_nil d u)
    refine .inr ⟨m, readCount_eq_ok_iff.mpr ⟨c, d :: u, by simp, hc, hm, ?_⟩⟩
    exact fun _ h => nomatch h

/-- What a cut leaves of the counts of an array may be as many counts as one wants, and then the bracket
is missing. -/
theorem readCounts_cut (h : Listed CountText first ns t) (hfirst : decide (done = 0) = first)
    (hu : Cut u (t ++ [']'])) : readCounts done ns.length u = .error (.text .truncated) ∨
      ∃ ms s, readCounts done ns.length u = .ok (ms, s) ∧ scanArrayEnd s = .error .truncated := by
  induction h generalizing done u with
  | @nil _ a ha => exact .inr ⟨[], u, rfl, scanChar_of_isPrefix ha (cut_concat_iff.mp hu)⟩
  | @cons first l v t n ns hl hv h ih =>
    subst hfirst
    rw [List.length_cons]
    rw [List.append_assoc, List.append_assoc] at hu
    rcases hu.cases with hlead | ⟨c, u, rfl, hcut⟩
    · rw [readCounts, nextElement_of_isPrefix hl hlead]
      exact .inl rfl
    · obtain ⟨d, w, rfl, hd⟩ := hv.exists_cons
      obtain ⟨rfl, -⟩ := cut_cons_iff.mp hcut
      rw [readCounts_part (nextElement_append hl (isSpace_of_isDigit hd) (isDigit_ne hd rfl))]
      rcases cut_append_iff.mp hcut with hcount | ⟨u', heq, hrest⟩
      · -- Nothing is left behind a count that is cut off.
        rcases readCount_cut spaces_nil hv hcount with herror | ⟨m, hok⟩
        · rw [herror]
          exact .inl rfl
        · rw [hok]
          cases ns with
          | nil => exact .inr ⟨[m], [], rfl, rfl⟩
          | cons => exact .inl rfl
      · have hends : EndsNumber u' := (h.endsNumber .array).of_isPrefix hrest.isPrefix
        have hcount : readCount (c :: u) = .ok (n, u') :=
          readCount_eq_ok_iff.mpr ⟨[], c :: w, heq, spaces_nil, hv, hends⟩
        rw [hcount]
        have hdone : decide (done + 1 = 0) = false := by simp
        rcases ih hdone hrest with herror | ⟨ms, s, hok, hend⟩
        · simp only [bind, Except.bind, herror]
          exact .inl rfl
        · simp only [bind, Except.bind, hok]
          exact .inr ⟨n :: ms, s, rfl, hend⟩

theorem readArray_cut (h : Listed CountText true (p.fields.map Prod.snd) t) (hu : Cut u (t ++ [']'])) :
    readArray u = .error (.text .truncated) := by
  have hcounts := readCounts_cut h (rfl : decide ((0 : Nat) = 0) = true) hu
  have hlength : (p.fields.map Prod.snd).length = 6 := rfl
  rw [hlength] at hcounts
  rcases hcounts with herror | ⟨ms, s, hok, hend⟩
  · simp only [readArray, herror]
  · simp only [readArray, hok, hend]
    rfl

end Counts

/-! ## Objects that are cut off -/

section Objects
variable {u a c s t v : List Char} {seen : Seen} {f : Field} {n : UInt32} {p : Profile} {first : Bool}
  {ms : List (Option (Field × UInt32))}

theorem readField_cut (ha : Spaces a) (hc : Spaces c) (hv : CountText n v)
    (hnew : seen.lookup f = none) (hu : Cut u (a ++ ':' :: (c ++ v))) :
    RunsOut (.text .truncated) (readField seen f u) := by
  have hfound : ¬ (seen.lookup f).isSome = true := by simp [hnew]
  rw [readField, if_neg hfound]
  rcases hu.cases with hspaces | ⟨d, u, rfl, hcut⟩
  · have hcolon : scanColon u = .error .truncated := scanChar_of_isPrefix ha hspaces
    rw [hcolon]
    exact .inl rfl
  · obtain ⟨rfl, hcount⟩ := cut_cons_iff.mp hcut
    have hcolon : scanColon (a ++ ':' :: u) = .ok u := scanColon_eq_ok_iff.mpr ⟨a, ha, rfl⟩
    simp only [hcolon]
    exact (readCount_cut hc hv hcount).map (g := fun k => seen ++ [(f, k)])

theorem readMember_cut (h : MemberText (some (f, n)) ('"' :: v)) (hnew : seen.lookup f = none)
    (hu : Cut u v) : RunsOut (.text .truncated) (readMember seen u) := by
  cases h with
  | @field f n b a c v hb ha hc hv =>
    rw [← List.singleton_append, ← List.append_assoc] at hu
    unfold readMember
    rcases cut_append_iff.mp hu with hname | ⟨u, rfl, hrest⟩
    · rw [scanString_cut hb hname]
      exact .inl rfl
    · have hname : scanString (b ++ ['"'] ++ u) = .ok (f.name.toList, u) :=
        scanString_eq_ok_iff.mpr ⟨b, by simp, hb⟩
      simp only [hname, ofName?_eq_some_iff.mpr rfl]
      exact readField_cut ha hc hv hnew hrest

theorem readMembers_cut (h : Listed MemberText first ms t) (hbare : none ∉ ms)
    (hperm : (seen ++ ms.filterMap id).Perm p.fields) (hu : Cut u (t ++ ['\x7d'])) :
    readMembers first seen u = .error (.text .truncated) := by
  induction h generalizing seen u with
  | nil ha =>
    have hspaces := ha.of_isPrefix (cut_concat_iff.mp hu)
    exact readMembers_of_fault (nextMember_of_spaces hspaces)
  | @cons first l v t m ms hl hm h ih =>
    obtain ⟨hsome, hrest⟩ := not_or.mp (mt List.mem_cons.mpr hbare)
    obtain ⟨⟨f, n⟩, rfl⟩ := Option.ne_none_iff_exists'.mp (Ne.symm hsome)
    have hnew : seen.lookup f = none := (distinct_of_perm hperm).lookup_eq_none
    rw [List.append_assoc, List.append_assoc] at hu
    rcases hu.cases with hlead | ⟨c, u, rfl, hpart⟩
    · exact readMembers_of_fault (nextMember_of_isPrefix hl hlead)
    · obtain ⟨w, rfl⟩ := hm.exists_quote
      obtain ⟨rfl, hcut⟩ := cut_cons_iff.mp hpart
      have hnext : nextMember first (l ++ '"' :: u) = .ok (.part u) :=
        nextMember_eq_part_iff.mpr ⟨l, rfl, hl⟩
      rcases cut_append_iff.mp hcut with hmember | ⟨u, rfl, hlater⟩
      · -- Nothing is left behind a member that is cut off.
        rcases readMember_cut hm hnew hmember with herror | ⟨seen', hok⟩
        · exact readMembers_of_refused hnext herror
        · rw [readMembers_of_part hnext hok]
          exact readMembers_of_fault (nextMember_of_spaces spaces_nil)
      · have hends : EndsNumber u := (h.endsNumber .object).of_isPrefix hlater.isPrefix
        have hmember : readMember seen (w ++ u) = .ok (seen ++ [(f, n)], u) := by
          refine readMember_append hm hends fun q hq => ?_
          rw [← Option.some.inj hq]
          exact hnew
        rw [append_filterMap_cons] at hperm
        rw [readMembers_of_part hnext hmember]
        exact ih hrest hperm hlater

end Objects

/-! ## Lists that are cut off -/

section Cut
variable {u s t v : List Char} {p : Profile} {ps : List Profile} {first : Bool}

theorem readRecord_cut (h : BareRecordText p v) (hu : Cut u v) :
    readRecord u = .error (.text .truncated) := by
  cases u with
  | nil => rfl
  | cons c u =>
    cases h with
    | array h =>
      obtain ⟨rfl, hcut⟩ := cut_cons_iff.mp hu
      rw [readRecord, skipSpaces_cons rfl]
      exact readArray_cut h hcut
    | object h hbare hfields =>
      obtain ⟨rfl, hcut⟩ := cut_cons_iff.mp hu
      rw [readRecord, skipSpaces_cons rfl]
      exact readMembers_cut h hbare hfields hcut

theorem readRecords_cut (h : Listed BareRecordText first ps t) (hu : Cut u (t ++ [']'])) :
    readRecords first u = .error (.text .truncated) := by
  induction h generalizing u with
  | nil ha =>
    have hspaces := ha.of_isPrefix (cut_concat_iff.mp hu)
    exact readRecords_of_fault (nextElement_of_spaces hspaces)
  | @cons first l v t p ps hl hv h ih =>
    rw [List.append_assoc, List.append_assoc] at hu
    rcases hu.cases with hlead | ⟨c, u, rfl, hcut⟩
    · exact readRecords_of_fault (nextElement_of_isPrefix hl hlead)
    · obtain ⟨d, w, rfl, hspace, hd⟩ := hv.recordText.exists_cons
      obtain ⟨rfl, -⟩ := cut_cons_iff.mp hcut
      rw [readRecords_part (nextElement_append hl hspace hd)]
      rcases cut_append_iff.mp hcut with hrecord | ⟨u', heq, hrest⟩
      · rw [readRecord_cut hv hrecord]
        rfl
      · rw [heq, readRecord_append hv.recordText]
        simp only [bind, Except.bind, ih hrest]
        rfl

/-- **Each beginning of a list is refused as cut off** while the closing bracket is missing. -/
theorem BareText.readDocument_of_isPrefix (h : BareText ps s) (hu : u <+: s) :
    readDocument u = .error (.text .truncated) := by
  obtain ⟨a, t, rfl, ha, ht⟩ := h
  rcases prefix_append_iff.mp hu with hspaces | ⟨u, rfl, hrest⟩
  · rw [readDocument, skipSpaces_eq_nil_iff.mpr (ha.of_isPrefix hspaces)]
    rfl
  · rcases List.prefix_cons_iff.mp hrest with rfl | ⟨u, rfl, hlist⟩
    · rw [List.append_nil, readDocument, skipSpaces_eq_nil_iff.mpr ha]
      rfl
    · have hs : skipSpaces (a ++ '[' :: u) = '[' :: u := by
        rw [skipSpaces_append ha, skipSpaces_cons rfl]
      simp only [readDocument, hs, readRecords_cut ht (cut_concat_iff.mpr hlist), if_true]

end Cut

/-! ## Values that are complete -/

section Complete
variable {a r s v w : List Char} {c : Char} {first : Bool} {done : Nat} {seen : Seen}

/-- The sort of a value is found, or the value is malformed. -/
theorem scanSort_ne_truncated (hv : Written .value (c :: w)) (hr : EndsNumber r) :
    scanSort c (w ++ r) ≠ .error .truncated := by
  generalize hcw : c :: w = v at hv
  have hnumber (hc : c = '-' ∨ c.isDigit = true) (g : Number × List Char → Found) :=
    (scanNumber_completes (hcw ▸ hv) hc hr).map_ne g
  rcases hv.scalar_or_opening with hv | ⟨e, w', heq, -⟩
  · cases hv with
    | @string b hb =>
      obtain ⟨rfl, rfl⟩ := List.cons.inj hcw
      rw [scanSort, if_neg (by decide), if_neg (by decide), if_neg (by decide), if_pos rfl,
        List.append_assoc, List.singleton_append]
      exact (scanString_completes hb).map_ne _
    | number hn =>
      obtain ⟨d, w', rfl, hd⟩ := hn.exists_cons
      obtain ⟨rfl, rfl⟩ := List.cons.inj hcw
      rw [scanSort, if_neg (isDigit_ne hd rfl), if_neg (isDigit_ne hd rfl), if_neg (isDigit_ne hd rfl),
        if_neg (isDigit_ne hd rfl), if_neg (isDigit_ne hd rfl), if_neg (isDigit_ne hd rfl),
        if_pos (.inr hd)]
      exact hnumber (.inr hd) _
    | negative hn =>
      obtain ⟨rfl, rfl⟩ := List.cons.inj hcw
      exact hnumber (.inl rfl) _
    | null | isTrue | isFalse =>
      obtain ⟨rfl, rfl⟩ := List.cons.inj hcw
      exact fun h => by cases h
  · obtain ⟨rfl, rfl⟩ := List.cons.inj (hcw.trans heq)
    cases e with
    | array => exact fun h => by cases h
    | object => exact fun h => by cases h

theorem completes_refuse {α : Type} {what : Misfit} :
    Completes (.text .truncated) r (refuse what : Except ReadError (α × List Char)) :=
  .inr ⟨.misfit what, rfl, by simp⟩

/-- A value of the wrong sort is refused, and not for its end. -/
theorem misplaced_error {α : Type} (expected : Expected) (hv : Written .value (c :: w)) (hr : EndsNumber r) :
    ∃ e, misplaced (α := α) expected c (w ++ r) = .error e ∧ e ≠ .text .truncated := by
  have hsort := scanSort_ne_truncated hv hr
  unfold misplaced
  split
  · exact ⟨_, rfl, by simp⟩
  · rename_i f hf
    refine ⟨_, rfl, fun heq => hsort ?_⟩
    rw [hf, ReadError.text.inj heq]

theorem readCount_completes (ha : Spaces a) (hv : Written .value v) (hr : EndsNumber r) :
    Completes (.text .truncated) r (readCount (a ++ (v ++ r))) := by
  obtain ⟨c, w, rfl, hspace, -⟩ := hv.exists_cons
  have hs : skipSpaces (a ++ (c :: w ++ r)) = c :: (w ++ r) := by
    rw [skipSpaces_append ha, List.cons_append, skipSpaces_cons hspace]
  simp only [readCount, hs]
  by_cases hc : c = '-' ∨ c.isDigit = true
  · rw [if_pos hc]
    rcases scanNumber_completes hv hc hr with ⟨k, hok⟩ | ⟨e, herror, he⟩
    · rw [hok]
      cases k with
      | float => exact completes_refuse
      | integer n =>
        by_cases hn : 0 ≤ n ∧ n ≤ 4294967295
        · exact .inl ⟨_, if_pos hn⟩
        · simp only [if_neg hn]
          exact completes_refuse
    · rw [herror]
      exact .inr ⟨_, rfl, fun h => he (ReadError.text.inj h)⟩
  · rw [if_neg hc]
    exact .inr (misplaced_error _ hv hr)

/-- Of an array, as many counts are read as one wants, and it goes on or is closed behind them. -/
theorem readCounts_completes (left : Nat) (h : Within .array (decide (done = 0)) s r) :
    (∃ ns t first, readCounts done left s = .ok (ns, t) ∧ Within .array first t r) ∨
      ∃ e, readCounts done left s = .error e ∧ e ≠ .text .truncated := by
  induction left generalizing done s with
  | zero => exact .inl ⟨[], s, _, rfl, h⟩
  | succ left ih =>
    rcases h.nextElement with hclosed | ⟨v, t, hpart, hv, ht⟩
    · rw [readCounts, hclosed]
      exact .inr ⟨_, rfl, by simp⟩
    · rw [readCounts_part hpart]
      rcases readCount_completes spaces_nil hv ht.endsNumber with ⟨n, hok⟩ | ⟨e, herror, he⟩
      · rw [List.nil_append] at hok
        have hdone : decide (done + 1 = 0) = false := by simp
        rw [← hdone] at ht
        rcases ih ht with ⟨ns, t', first, hrest, hwithin⟩ | ⟨e, hrest, he⟩
        · refine .inl ⟨n :: ns, t', first, ?_, hwithin⟩
          rw [hok]
          simp only [bind, Except.bind, hrest]
          rfl
        · refine .inr ⟨e, ?_, he⟩
          rw [hok]
          simp only [bind, Except.bind, hrest]
          rfl
      · rw [List.nil_append] at herror
        refine .inr ⟨e, ?_, he⟩
        rw [herror]
        rfl

theorem readArray_completes (h : Within .array true s r) :
    Completes (.text .truncated) r (readArray s) := by
  have hcounts : Within .array (decide ((0 : Nat) = 0)) s r := h
  rcases readCounts_completes 6 hcounts with ⟨ns, t, first, hok, ht⟩ | ⟨e, herror, he⟩
  · rcases ht.scanArrayEnd with hend | hend
    · cases hp : ofCounts? ns with
      | some p => exact .inl ⟨p, by simp only [readArray, hok, hend, hp]⟩
      | none =>
        simp only [readArray, hok, hend, hp]
        exact completes_refuse
    · simp only [readArray, hok, hend]
      exact .inr ⟨_, rfl, by decide⟩
  · exact .inr ⟨e, by simp only [readArray, herror], he⟩

theorem readMember_completes (seen : Seen) {b c : List Char} (hb : StringForm b) (hc : Spaces c) (ha : Spaces a)
    (hv : Written .value v) (hr : EndsNumber r) : Completes (.text .truncated) r
      (readMember seen (b ++ '"' :: (c ++ ':' :: (a ++ (v ++ r))))) := by
  have hcolon : scanColon (c ++ ':' :: (a ++ (v ++ r))) = .ok (a ++ (v ++ r)) :=
    scanColon_eq_ok_iff.mpr ⟨c, hc, rfl⟩
  rcases scanString_completes (r := c ++ ':' :: (a ++ (v ++ r))) hb with
    ⟨name, hname⟩ | ⟨e, herror, he⟩
  · simp only [readMember, hname]
    split
    · rename_i f _
      unfold readField
      split
      · exact completes_refuse
      · simp only [hcolon]
        exact (readCount_completes ha hv hr).map (g := fun n => seen ++ [(f, n)])
    · rw [skipMember_append hc ha hv hr]
      exact .inl ⟨seen, rfl⟩
  · simp only [readMember, herror]
    exact .inr ⟨_, rfl, fun h => he (ReadError.text.inj h)⟩

/-- What is missing in an object that is closed is no fault of the text. -/
theorem record_ne_text {f : Fault} : seen.record ≠ .error (.text f) := by
  have hneed (g : Field) : seen.need g ≠ .error (.text f) := by
    unfold Seen.need
    split
    · exact nofun
    · exact nofun
  simp [Seen.record, bind_eq_error, hneed, pure, Except.pure]

theorem readMembers_completes (h : Within .object first s r) :
    Completes (.text .truncated) r (readMembers first seen s) := by
  induction hlength : s.length using Nat.strong_induction_on generalizing first seen s with
  | _ n ih =>
    subst hlength
    rcases h.nextMember with hclosed | ⟨b, c, a, v, t, hpart, hb, hc, ha, hv, ht⟩
    · rw [readMembers_of_closed hclosed]
      cases hrecord : seen.record with
      | ok p => exact .inl ⟨p, rfl⟩
      | error e =>
        refine .inr ⟨e, rfl, ?_⟩
        rintro rfl
        exact record_ne_text hrecord
    · rcases readMember_completes seen hb hc ha hv ht.endsNumber with
        ⟨seen', hok⟩ | ⟨e, herror, he⟩
      · have hlt := length_nextMember_part hpart
        have hlt' := length_readMember hok
        rw [readMembers_of_part hpart hok]
        exact ih t.length (by omega) ht rfl
      · exact .inr ⟨e, readMembers_of_refused hpart herror, he⟩

theorem readRecord_completes (hv : Written .value v) (hr : EndsNumber r) :
    Completes (.text .truncated) r (readRecord (v ++ r)) := by
  rcases hv.scalar_or_opening with hscalar | ⟨e, w, rfl, hwithin⟩
  · obtain ⟨c, w, rfl, hspace, -, hopening, -⟩ := hscalar.exists_cons
    have harray : c ≠ '[' := hopening .array
    have hobject : c ≠ '\x7b' := hopening .object
    rw [readRecord, List.cons_append, skipSpaces_cons hspace]
    simp only [if_neg harray, if_neg hobject]
    exact .inr (misplaced_error _ hv hr)
  · rw [List.cons_append]
    cases e with
    | array =>
      rw [Enclosure.opening, readRecord, skipSpaces_cons rfl]
      exact readArray_completes (hwithin r)
    | object =>
      rw [Enclosure.opening, readRecord, skipSpaces_cons rfl]
      exact readMembers_completes (hwithin r)

theorem readRecords_completes (h : Within .array first s r) :
    Completes (.text .truncated) r (readRecords first s) := by
  induction hlength : s.length using Nat.strong_induction_on generalizing first s with
  | _ n ih =>
    subst hlength
    rcases h.nextElement with hclosed | ⟨v, t, hpart, hv, ht⟩
    · rw [readRecords_of_closed hclosed]
      exact .inl ⟨[], rfl⟩
    · rcases readRecord_completes hv ht.endsNumber with ⟨p, hok⟩ | ⟨e, herror, he⟩
      · have hle := length_nextElement_part hpart
        have hlt := length_readRecord hok
        rw [readRecords_of_part hpart hok]
        exact (ih t.length (by omega) ht rfl).map
      · refine .inr ⟨e, ?_, he⟩
        rw [readRecords_part hpart, herror]
        rfl

/-- **Of a complete document it is never said that it ends too early.** -/
theorem readDocument_ne_truncated (h : JsonText s) : readDocument s ≠ .error (.text .truncated) := by
  obtain ⟨a, v, b, rfl, ha, hv, hb⟩ := h
  have hends : EndsNumber b := by
    simpa using EndsNumber.append (r := []) hb fun _ h => nomatch h
  rcases hv.scalar_or_opening with hscalar | ⟨e, w, rfl, hwithin⟩
  · obtain ⟨c, w, rfl, hspace, -, hopening, -⟩ := hscalar.exists_cons
    have harray : c ≠ '[' := hopening .array
    have hs : skipSpaces (a ++ (c :: w ++ b)) = c :: (w ++ b) := by
      rw [skipSpaces_append ha, List.cons_append, skipSpaces_cons hspace]
    simp only [readDocument, hs, if_neg harray]
    obtain ⟨e, herror, he⟩ := misplaced_error (α := List Profile) .records hv hends
    rw [herror]
    exact fun h => he (Except.error.inj h)
  · cases e with
    | array =>
      have hs : skipSpaces (a ++ (Enclosure.array.opening :: w ++ b)) = '[' :: (w ++ b) := by
        rw [skipSpaces_append ha, List.cons_append, Enclosure.opening, skipSpaces_cons rfl]
      simp only [readDocument, hs, if_true]
      rcases readRecords_completes (hwithin b) with ⟨ps, hok⟩ | ⟨e, herror, he⟩
      · simp only [hok, skipSpaces_eq_nil_iff.mpr hb, if_true]
        exact nofun
      · simp only [herror]
        exact fun h => he (Except.error.inj h)
    | object =>
      have hs : skipSpaces (a ++ (Enclosure.object.opening :: w ++ b)) = '\x7b' :: (w ++ b) := by
        rw [skipSpaces_append ha, List.cons_append, Enclosure.opening, skipSpaces_cons rfl]
      simp only [readDocument, hs]
      exact nofun

end Complete

/-! ## What `Eof` says of a text -/

/-- **A text that is cut off is refused as one, and no complete document is.** -/
theorem eof_of_cut_only :
    (∀ ps s b, BareText ps s → Spaces b → readAll (String.ofList (s ++ ']' :: b)) = .ok ps ∧
      ∀ u, u <+: s → ∃ e, readAll (String.ofList u) = .error e ∧ e.category = "Eof") ∧
    ∀ text e, JsonText text.toList → readAll text = .error e → e.category ≠ "Eof" := by
  refine ⟨fun ps s b hs hb => ⟨?_, fun u hu => ?_⟩, fun text e htext herror heof => ?_⟩
  · rw [readAll_eq_ok_iff, String.toList_ofList]
    exact hs.documentText hb
  · refine ⟨.text .truncated, ?_, rfl⟩
    rw [readAll, String.toList_ofList]
    exact hs.readDocument_of_isPrefix hu
  · rw [category_eq_eof_iff.mp heof] at herror
    exact readDocument_ne_truncated htext herror

/-- A cut in the first number of an object, and a document that is no list at all. -/
theorem eof_of_cut_only_in_number :
    BareText [⟨10, 2, 3, 4, 5, 6⟩] ("[\x7b\"elements\":10,\"valids\":2,\"readies\":3," ++
        "\"transfers\":4,\"packets\":5,\"cycles\":6\x7d").toList ∧
      (∃ e, readAll "[\x7b\"elements\":1" = .error e ∧ e.category = "Eof") ∧
      JsonText "null".toList ∧ (ReadError.misfit (.wrongSort .null .records)).category ≠ "Eof" := by
  have htext : BareText [⟨10, 2, 3, 4, 5, 6⟩] ("[\x7b\"elements\":10,\"valids\":2,\"readies\":3," ++
      "\"transfers\":4,\"packets\":5,\"cycles\":6\x7d").toList := by
    refine ⟨[], _, ?_, spaces_nil, .cons (.first spaces_nil) (.object
      (.cons (.first spaces_nil) (.compact .elements 10)
      (.cons (.later spaces_nil spaces_nil) (.compact .valids 2)
      (.cons (.later spaces_nil spaces_nil) (.compact .readies 3)
      (.cons (.later spaces_nil spaces_nil) (.compact .transfers 4)
      (.cons (.later spaces_nil spaces_nil) (.compact .packets 5)
      (.cons (.later spaces_nil spaces_nil) (.compact .cycles 6)
      (.nil spaces_nil))))))) (by decide) (by decide)) (.nil spaces_nil)⟩
    rfl
  have hnull : JsonText "null".toList := ⟨[], _, [], rfl, spaces_nil, .scalar .null, spaces_nil⟩
  refine ⟨htext, ?_, hnull, (eof_of_cut_only.2 "null" _ hnull rfl)⟩
  exact ((eof_of_cut_only.1 _ _ [] htext spaces_nil).2 "[\x7b\"elements\":1".toList (by decide))

end Dataflow.Profile
