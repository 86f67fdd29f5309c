import Dataflow.Proofs.Json.Parts

/-!
# JSON texts that are cut off

A text is cut off where something of it is missing at the end (`Cut`).  The cut can fall into any token or
between two of them.  Where a token shows its own end, its scanner finds that the text has ended too early;
this holds inside of an escape as well (`scanEscape_cut`, `scanString_cut`), and between the parts of an
enclosure (`nextElement_of_isPrefix`, `nextMember_of_isPrefix`).

A number shows no end.  What a cut leaves of it may be a number, and then a scanner that comes to the end of
the text has not failed yet (`RunsOut`).
-/

namespace Dataflow.Json

/-- **A text that is cut off**: something is missing behind it. -/
def Cut (u s : List Char) : Prop := ∃ c w, s = u ++ c :: w

/-- The scanner came to the end of the text, too early or not. -/
def RunsOut {ε α : Type} (early : ε) (x : Except ε (α × List Char)) : Prop :=
  x = .error early ∨ ∃ a, x = .ok (a, [])

section Cut
variable {u a b s : List Char} {c d : Char}

theorem Cut.isPrefix (h : Cut u s) : u <+: s := by
  obtain ⟨c, w, rfl⟩ := h
  exact List.prefix_append u (c :: w)

theorem not_cut_nil : ¬ Cut u [] := by
  rintro ⟨c, w, h⟩
  exact List.append_ne_nil_of_right_ne_nil u (List.cons_ne_nil c w) h.symm

theorem cut_cons_iff : Cut (d :: u) (c :: s) ↔ d = c ∧ Cut u s := by
  constructor
  · rintro ⟨e, w, h⟩
    obtain ⟨rfl, rfl⟩ := List.cons.inj h
    exact ⟨rfl, e, w, rfl⟩
  · rintro ⟨rfl, e, w, rfl⟩
    exact ⟨e, w, rfl⟩

/-- **A cut falls into the first part or behind it.** -/
theorem cut_append_iff : Cut u (a ++ b) ↔ Cut u a ∨ ∃ u', u = a ++ u' ∧ Cut u' b := by
  constructor
  · rintro ⟨c, w, h⟩
    rcases List.append_eq_append_iff.mp h with ⟨d, rfl, rfl⟩ | ⟨d, rfl, hd⟩
    · exact .inr ⟨d, rfl, c, w, rfl⟩
    · cases d with
      | nil => exact .inr ⟨[], by simp, c, w, hd.symm⟩
      | cons e d =>
        obtain ⟨rfl, rfl⟩ := List.cons.inj hd
        exact .inl ⟨c, d, rfl⟩
  · rintro (⟨c, w, rfl⟩ | ⟨u', rfl, c, w, rfl⟩)
    · exact ⟨c, w ++ b, by simp⟩
    · exact ⟨c, w, by simp⟩

/-- A cut leaves nothing of the second part, or something. -/
theorem Cut.cases (h : Cut u (a ++ b)) :
    u <+: a ∨ ∃ c u', u = a ++ c :: u' ∧ Cut (c :: u') b := by
  rcases cut_append_iff.mp h with ha | ⟨u', rfl, hb⟩
  · exact .inl ha.isPrefix
  · cases u' with
    | nil => exact .inl (by simp)
    | cons c u' => exact .inr ⟨c, u', rfl, hb⟩

theorem prefix_append_iff : u <+: a ++ b ↔ u <+: a ∨ ∃ u', u = a ++ u' ∧ u' <+: b := by
  constructor
  · rintro ⟨w, h⟩
    rcases List.append_eq_append_iff.mp h with ⟨d, rfl, -⟩ | ⟨d, rfl, hd⟩
    · exact .inl ⟨d, rfl⟩
    · exact .inr ⟨d, rfl, w, hd.symm⟩
  · rintro (hu | ⟨u', rfl, hu⟩)
    · exact hu.trans (List.prefix_append a b)
    · exact (List.prefix_append_right_inj a).mpr hu

/-- What ends in a certain character is cut off if anything but this character is there. -/
theorem cut_concat_iff : Cut u (s ++ [c]) ↔ u <+: s := by
  constructor
  · intro h
    rcases List.prefix_concat_iff.mp h.isPrefix with rfl | hu
    · obtain ⟨d, w, h⟩ := h
      exact absurd (congrArg List.length h) (by simp)
    · exact hu
  · rintro ⟨w, rfl⟩
    cases w with
    | nil => exact ⟨c, [], by simp⟩
    | cons d w => exact ⟨d, w ++ [c], by simp⟩

end Cut

theorem RunsOut.map {ε α β : Type} {early : ε} {x : Except ε (α × List Char)} {g : α → β}
    (h : RunsOut early x) : RunsOut early (x.map fun p => (g p.1, p.2)) := by
  rcases h with rfl | ⟨a, rfl⟩
  · exact .inl rfl
  · exact .inr ⟨g a, rfl⟩

/-! ## Spaces and strings -/

section Tokens
variable {u a b e s t : List Char} {d : Char} {n high : Nat}

theorem Spaces.of_isPrefix (ha : Spaces a) (hu : u <+: a) : Spaces u := fun _ hc => ha _ (hu.mem hc)

theorem scanChar_of_isPrefix (ha : Spaces a) (hu : u <+: a) :
    scanChar d u = .error .truncated := by
  rw [scanChar, skipSpaces_eq_nil_iff.mpr (ha.of_isPrefix hu)]

theorem utf8Size_of_hexDigit? {c : Char} (h : hexDigit? c = some n) : c.utf8Size = 1 := by
  rw [Char.utf8Size_eq_one_iff]
  unfold hexDigit? at h
  split at h
  · rename_i hc
    exact UInt32.le_trans hc.2 (by decide)
  · split at h
    · rename_i hc
      exact UInt32.le_trans hc.2 (by decide)
    · split at h
      · rename_i hc
        exact UInt32.le_trans hc.2 (by decide)
      · cases h

/-- Less than four characters of one byte each are less than four bytes. -/
theorem scanCodeUnit_of_short (hlength : u.length < 4) (hsize : ∀ c ∈ u, c.utf8Size = 1) :
    scanCodeUnit u = .error .truncated := by
  have hbytes : byteLength u = u.length := by
    clear hlength
    induction u with
    | nil => rfl
    | cons c u ih =>
      obtain ⟨hc, hu⟩ := List.forall_mem_cons.mp hsize
      rw [byteLength, hc, ih hu, List.length_cons, Nat.add_comm]
  unfold scanCodeUnit
  split
  · simp only [List.length_cons] at hlength
    omega
  · rw [hbytes, if_pos hlength]

theorem scanCodeUnit_cut (hs : CodeUnit s n) (hu : Cut u s) : scanCodeUnit u = .error .truncated := by
  obtain ⟨a, b, c, d, i, j, k, l, rfl, ha, hb, hc, hd, -⟩ := hs
  have hsize : ∀ e ∈ [a, b, c, d], e.utf8Size = 1 := by
    simp [utf8Size_of_hexDigit? ha, utf8Size_of_hexDigit? hb, utf8Size_of_hexDigit? hc,
      utf8Size_of_hexDigit? hd]
  obtain ⟨e, w, heq⟩ := hu
  have hlength := congrArg List.length heq
  simp only [List.length_cons, List.length_nil, List.length_append] at hlength
  refine scanCodeUnit_of_short (by omega) fun c hc => hsize c ?_
  rw [heq]
  exact List.mem_append_left _ hc

theorem scanLowSurrogate_cut (ht : CodeUnit t n) (hu : Cut u ('\\' :: 'u' :: t)) :
    scanLowSurrogate high u = .error .truncated := by
  match u, hu with
  | [], _ => rfl
  | [c], hu =>
    obtain ⟨hc, -⟩ := cut_cons_iff.mp hu
    rw [hc]
    rfl
  | c :: d :: u, hu =>
    obtain ⟨hc, hrest⟩ := cut_cons_iff.mp hu
    obtain ⟨hd, hcut⟩ := cut_cons_iff.mp hrest
    rw [hc, hd, scanLowSurrogate, scanCodeUnit_cut ht hcut]
    rfl

theorem scanUnicode_cut (he : Escape ('u' :: e) d) (hu : Cut u e) :
    scanUnicode u = .error .truncated := by
  unfold scanUnicode
  cases he with
  | letter h => cases h
  | unit hunit =>
    rw [scanCodeUnit_cut hunit hu]
    rfl
  | @pair s t high low hs hhigh ht hlow =>
    rcases cut_append_iff.mp hu with hcut | ⟨u, rfl, hcut⟩
    · rw [scanCodeUnit_cut hs hcut]
      rfl
    · refine bind_eq_error.mpr (.inr ⟨(high, u), scanCodeUnit_eq_ok_iff.mpr ⟨s, rfl, hs⟩, ?_⟩)
      simp only [not_isLowSurrogate hhigh, hhigh, Bool.false_eq_true, if_false, if_true]
      exact scanLowSurrogate_cut ht hcut

theorem scanEscape_cut (he : Escape e d) (hu : Cut u e) : scanEscape u = .error .truncated := by
  cases u with
  | nil => rfl
  | cons c u =>
    cases e with
    | nil => exact absurd hu not_cut_nil
    | cons c' e =>
      obtain ⟨rfl, hcut⟩ := cut_cons_iff.mp hu
      by_cases hc : c = 'u'
      · subst hc
        rw [scanEscape, if_pos rfl]
        exact scanUnicode_cut he hcut
      · cases he with
        | letter => exact absurd hcut not_cut_nil
        | unit => exact absurd rfl hc
        | pair => exact absurd rfl hc

/-- **A string that is cut off has no end.** -/
theorem scanString_cut (hb : Spells b t) (hu : Cut u (b ++ ['"'])) :
    scanString u = .error .truncated := by
  induction hb generalizing u with
  | nil =>
    obtain rfl := List.prefix_nil.mp (cut_concat_iff.mp hu)
    rw [scanString]
  | @plain c b t hc h ih =>
    cases u with
    | nil => rw [scanString]
    | cons c' u =>
      obtain ⟨rfl, hcut⟩ := cut_cons_iff.mp hu
      rw [scanString_plain hc, ih hcut]
      rfl
  | @escape e b t d he h ih =>
    cases u with
    | nil => rw [scanString]
    | cons c' u =>
      rw [List.append_assoc, List.cons_append] at hu
      obtain ⟨rfl, hrest⟩ := cut_cons_iff.mp hu
      rcases cut_append_iff.mp hrest with hcut | ⟨u, rfl, hcut⟩
      · exact scanString_of_escape_error (scanEscape_cut he hcut)
      · rw [scanString_escape (scanEscape_eq_ok_iff.mpr ⟨e, rfl, he⟩), ih hcut]
        rfl

end Tokens

/-! ## Parts -/

section Parts
variable {first : Bool} {l r u : List Char} {c : Char}

theorem nextElement_of_spaces (hu : Spaces u) : nextElement first u = .error .truncated := by
  rw [nextElement, skipSpaces_eq_nil_iff.mpr hu]

theorem nextMember_of_spaces (hu : Spaces u) : nextMember first u = .error .truncated := by
  rw [nextMember, skipSpaces_eq_nil_iff.mpr hu]

/-- What a cut leaves in front of a part: nothing, or a comma and nothing behind it. -/
theorem skipSpaces_of_isPrefix (hl : Lead first l) (hu : u <+: l) :
    skipSpaces u = [] ∨ first = false ∧ ∃ rest, skipSpaces u = ',' :: rest ∧ skipSpaces rest = [] := by
  cases hl with
  | first ha => exact .inl (skipSpaces_eq_nil_iff.mpr (ha.of_isPrefix hu))
  | @later a b ha hb =>
    rcases prefix_append_iff.mp hu with hspaces | ⟨u, rfl, hrest⟩
    · exact .inl (skipSpaces_eq_nil_iff.mpr (ha.of_isPrefix hspaces))
    · rcases List.prefix_cons_iff.mp hrest with rfl | ⟨u, rfl, hspaces⟩
      · rw [List.append_nil]
        exact .inl (skipSpaces_eq_nil_iff.mpr ha)
      · rw [skipSpaces_append ha, skipSpaces_cons rfl]
        exact .inr ⟨rfl, u, rfl, skipSpaces_eq_nil_iff.mpr (hb.of_isPrefix hspaces)⟩

theorem nextElement_of_isPrefix (hl : Lead first l) (hu : u <+: l) :
    nextElement first u = .error .truncated := by
  rcases skipSpaces_of_isPrefix hl hu with hnil | ⟨rfl, rest, hcomma, hnil⟩
  · exact nextElement_of_spaces (skipSpaces_eq_nil_iff.mp hnil)
  · simp only [nextElement, hcomma, hnil]
    rfl

theorem nextMember_of_isPrefix (hl : Lead first l) (hu : u <+: l) :
    nextMember first u = .error .truncated := by
  rcases skipSpaces_of_isPrefix hl hu with hnil | ⟨rfl, rest, hcomma, hnil⟩
  · exact nextMember_of_spaces (skipSpaces_eq_nil_iff.mp hnil)
  · simp only [nextMember, hcomma, hnil]
    rfl

/-- What is left of a text behind a number does not go on with it either. -/
theorem EndsNumber.of_isPrefix (h : EndsNumber r) (hu : u <+: r) : EndsNumber u := by
  obtain ⟨w, rfl⟩ := hu
  cases u with
  | nil => exact fun c hc => nomatch hc
  | cons c u => exact h

end Parts

end Dataflow.Json
