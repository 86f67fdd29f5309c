import Dataflow.Proofs.Json.Parts

/-!
# Complete JSON documents

A reader of a complete document may find that it is not what it expects, but it does not find that the text
has ended too early.  The reason is that in front of it there is always the rest of something that is closed
further on: a token, or the parts of an enclosure (`Within`).  A scanner that is put in front of such a thing
gets behind it, or finds fault with it for another reason (`Completes`); it may find a string with half of a
surrogate pair, or a number that no double can hold.
-/

namespace Dataflow.Json

/-- **A complete document**: one value, with spaces around it. -/
def JsonText (s : List Char) : Prop :=
  ∃ a v b, s = a ++ (v ++ b) ∧ Spaces a ∧ Written .value v ∧ Spaces b

/-- **The scanner gets as far as `r`, or it finds a fault**, but not that the text has ended too early. -/
def Completes {ε α : Type} (early : ε) (r : List Char) (x : Except ε (α × List Char)) : Prop :=
  (∃ a, x = .ok (a, r)) ∨ ∃ e, x = .error e ∧ e ≠ early

theorem Completes.map {ε α β : Type} {early : ε} {r : List Char} {x : Except ε (α × List Char)}
    {g : α → β} (h : Completes early r x) :
    Completes early r (x.map fun p => (g p.1, p.2)) := by
  rcases h with ⟨a, rfl⟩ | ⟨e, rfl, he⟩
  · exact .inl ⟨g a, rfl⟩
  · exact .inr ⟨e, rfl, he⟩

/-- Whatever is made of what was read, the fault is not that the text has ended. -/
theorem Completes.map_ne {ε α β : Type} {early : ε} {r : List Char} {x : Except ε (α × List Char)}
    (h : Completes early r x) (g : α × List Char → β) : x.map g ≠ .error early := by
  rcases h with ⟨a, rfl⟩ | ⟨e, rfl, he⟩
  · simp [Except.map]
  · simpa [Except.map] using he

theorem completes_malformed {α : Type} {r : List Char} :
    Completes .truncated r (.error .malformed : Except Fault (α × List Char)) :=
  .inr ⟨_, rfl, by decide⟩

/-! ## Strings -/

section Strings
variable {r b e s : List Char}

theorem scanLowSurrogate_form {high : Nat} (hs : StringForm s) :
    scanLowSurrogate high (s ++ '"' :: r) = .error .malformed ∨
      ∃ d s', scanLowSurrogate high (s ++ '"' :: r) = .ok (d, s' ++ '"' :: r) ∧ StringForm s' ∧
        s'.length ≤ s.length := by
  cases hs with
  | nil => exact .inl rfl
  | @plain c s hc hs =>
    left
    rw [List.cons_append]
    unfold scanLowSurrogate
    split
    · rename_i heq
      cases heq
    · rename_i heq
      exact absurd (List.cons.inj heq).1 hc.2.1
    · rename_i heq
      exact absurd (List.cons.inj heq).1 hc.2.1
    · rfl
  | @escape e s he hs =>
    rw [List.append_assoc, List.cons_append]
    cases he with
    | @letter c hc =>
      left
      have hne : c ≠ 'u' := by
        rintro rfl
        cases hc
      rw [List.singleton_append]
      unfold scanLowSurrogate
      split
      · rename_i heq
        cases heq
      · rename_i heq
        cases heq
      · rename_i heq
        exact absurd (List.cons.inj (List.cons.inj heq).2).1 hne
      · rfl
    | @unit w low hw =>
      have hunit : scanCodeUnit (w ++ (s ++ '"' :: r)) = .ok (low, s ++ '"' :: r) :=
        scanCodeUnit_eq_ok_iff.mpr ⟨w, rfl, hw⟩
      rw [List.cons_append, scanLowSurrogate, hunit]
      by_cases hlow : isLowSurrogate low = true
      · refine .inr ⟨pairedChar high low, s, if_pos hlow, hs, ?_⟩
        simp only [List.cons_append, List.length_cons, List.length_append]
        omega
      · exact .inl (if_neg hlow)

/-- An escape that is read may take a second one with it, and what is left is the rest of the string. -/
theorem scanEscape_form (he : EscapeForm e) (hs : StringForm s) :
    scanEscape (e ++ (s ++ '"' :: r)) = .error .malformed ∨
      ∃ d s', scanEscape (e ++ (s ++ '"' :: r)) = .ok (d, s' ++ '"' :: r) ∧ StringForm s' ∧
        s'.length ≤ s.length := by
  cases he with
  | @letter c hc =>
    obtain ⟨d, hd⟩ := Option.isSome_iff_exists.mp hc
    exact .inr ⟨d, s, scanEscape_eq_ok_iff.mpr ⟨[c], rfl, .letter hd⟩, hs, Nat.le_refl _⟩
  | @unit w n hw =>
    have hunit : scanCodeUnit (w ++ (s ++ '"' :: r)) = .ok (n, s ++ '"' :: r) :=
      scanCodeUnit_eq_ok_iff.mpr ⟨w, rfl, hw⟩
    have hscan : scanEscape ('u' :: w ++ (s ++ '"' :: r)) = if isLowSurrogate n then .error .malformed
        else if isHighSurrogate n then scanLowSurrogate n (s ++ '"' :: r)
        else .ok (Char.ofNat n, s ++ '"' :: r) := by
      rw [List.cons_append, scanEscape, if_pos rfl, scanUnicode, hunit]
      rfl
    rw [hscan]
    split
    · exact .inl rfl
    · split
      · exact scanLowSurrogate_form hs
      · exact .inr ⟨_, s, rfl, hs, Nat.le_refl _⟩

/-- **A string that is complete is read, or it is malformed.** -/
theorem scanString_completes (hb : StringForm b) :
    Completes .truncated r (scanString (b ++ '"' :: r)) := by
  -- An escape may take more than its own text, so the induction is on the length.
  induction hlength : b.length using Nat.strong_induction_on generalizing b with
  | _ n ih =>
    subst hlength
    cases hb with
    | nil =>
      rw [List.nil_append, scanString, if_pos rfl]
      exact .inl ⟨_, rfl⟩
    | @plain c s hc hs =>
      rw [List.cons_append, scanString_plain hc]
      exact (ih s.length (by simp) hs rfl).map
    | @escape e s he hs =>
      rw [List.append_assoc, List.cons_append]
      rcases scanEscape_form (r := r) he hs with herror | ⟨d, s', hok, hs', hle⟩
      · rw [scanString_of_escape_error herror]
        exact completes_malformed
      · rw [scanString_escape hok]
        refine (ih s'.length ?_ hs' rfl).map
        simp only [List.cons_append, List.length_cons, List.length_append]
        omega

end Strings

/-! ## Numbers -/

section Numbers
variable {r n f e sign d v w : List Char} {m lost : Nat} {k : Int} {negative : Bool} {c : Char}

theorem float_completes : Completes .truncated r (float m k r) := by
  unfold float
  split
  · exact .inl ⟨_, rfl⟩
  · exact completes_malformed

theorem wholeNumber_completes : Completes .truncated r (wholeNumber negative m lost r) := by
  unfold wholeNumber
  split
  · exact float_completes
  · split
    · exact .inl ⟨_, rfl⟩
    · exact .inl ⟨_, rfl⟩

theorem scanExponent_completes (hsign : ExponentSign sign) (hd : Digits d) (hr : EndsNumber r) :
    Completes .truncated r (scanExponent m k (sign ++ d ++ r)) := by
  have hne : leadingDigits (d ++ r) ≠ [] := by
    rw [leadingDigits_append hd.2 hr.endsDigits]
    exact hd.1
  have hsplit := exponentSign_append (r := r) hsign hd
  simp only [scanExponent, hsplit, if_neg hne, afterDigits_append hd.2 hr.endsDigits]
  exact float_completes

theorem scanFraction_completes (hd : Digits d) (he : Exponent e) (hr : EndsNumber r) :
    Completes .truncated r (scanFraction m k (d ++ (e ++ r))) := by
  have hends : EndsDigits (e ++ r) := fun c hc => (he.head_append hr c hc).1
  simp only [scanFraction, leadingDigits_append hd.2 hends, if_neg hd.1, afterDigits_append hd.2 hends]
  cases he with
  | absent =>
    rw [List.nil_append]
    split
    · exact absurd rfl (hr _ rfl).2.2.1
    · exact absurd rfl (hr _ rfl).2.2.2
    · exact float_completes
  | digits hmark hsign hd =>
    obtain rfl | rfl := hmark
    · exact scanExponent_completes hsign hd hr
    · exact scanExponent_completes hsign hd hr

theorem scanAfterInteger_completes (hf : Fraction f) (he : Exponent e) (hr : EndsNumber r) :
    Completes .truncated r (scanAfterInteger negative m lost (f ++ e ++ r)) := by
  cases hf with
  | digits hd =>
    rw [List.append_assoc]
    exact scanFraction_completes hd he hr
  | absent =>
    rw [List.nil_append]
    cases he with
    | absent =>
      rw [List.nil_append, scanAfterInteger_of_endsNumber hr]
      exact wholeNumber_completes
    | digits hmark hsign hd =>
      obtain rfl | rfl := hmark
      · exact scanExponent_completes hsign hd hr
      · exact scanExponent_completes hsign hd hr

theorem scanUnsigned_completes (hn : Unsigned n) (hr : EndsNumber r) :
    Completes .truncated r (scanUnsigned negative (n ++ r)) := by
  obtain ⟨w, f, e, rfl, hw, hf, he⟩ := hn
  have hends := hf.endsDigits_append he hr
  rw [List.append_assoc]
  obtain rfl | ⟨⟨hne, hdigits⟩, hhead⟩ := hw
  · have hzeros : leadingDigits (f ++ e ++ r) = [] :=
      leadingDigits_append (d := []) (fun _ h => nomatch h) hends
    rw [List.cons_append, List.nil_append, scanUnsigned, if_pos rfl, if_pos hzeros]
    exact scanAfterInteger_completes hf he hr
  · cases w with
    | nil => exact absurd rfl hne
    | cons c w =>
      have hc : c ≠ '0' := by simpa using hhead
      have hw : ∀ c ∈ w, c.isDigit = true := fun c hc => hdigits c (List.mem_cons_of_mem _ hc)
      rw [List.cons_append, scanUnsigned, if_neg hc, if_pos (hdigits c List.mem_cons_self),
        leadingDigits_append hw hends, afterDigits_append hw hends]
      exact scanAfterInteger_completes hf he hr

/-- **A number that is complete is read, or it is too large.** -/
theorem scanNumber_completes (hv : Written .value (c :: w)) (hc : c = '-' ∨ c.isDigit = true)
    (hr : EndsNumber r) : Completes .truncated r (scanNumber (c :: (w ++ r))) := by
  generalize hcw : c :: w = v at hv
  cases hv with
  | scalar hv =>
    cases hv with
    | number hn =>
      obtain ⟨d, n, rfl, hd⟩ := hn.exists_cons
      obtain ⟨rfl, rfl⟩ := List.cons.inj hcw
      rw [← List.cons_append]
      unfold scanNumber
      split
      · rename_i heq
        rw [(List.cons.inj heq).1] at hd
        cases hd
      · exact scanUnsigned_completes hn hr
    | negative hn =>
      obtain ⟨rfl, rfl⟩ := List.cons.inj hcw
      exact scanUnsigned_completes hn hr
    | string | null | isTrue | isFalse =>
      obtain ⟨rfl, -⟩ := List.cons.inj hcw
      exact absurd hc (by decide)
  | @empty e | @full e =>
    obtain ⟨rfl, -⟩ := List.cons.inj hcw
    exact absurd hc (by cases e <;> decide)

end Numbers

/-! ## What is left of an enclosure -/

/-- **What is left of an enclosure**, at the next part or at the end: this part and those behind it, if
there is one, and the closing bracket.  Behind it follows `r`. -/
inductive Within (e : Enclosure) : Bool → List Char → List Char → Prop
  | close {first : Bool} {a r : List Char} (ha : Spaces a) : Within e first (a ++ e.closing :: r) r
  | first {p r : List Char} (hp : Written (.parts e) p) : Within e true (p ++ e.closing :: r) r
  | more {a p r : List Char} (ha : Spaces a) (hp : Written (.parts e) p) :
      Within e false (a ++ ',' :: (p ++ e.closing :: r)) r

section Within
variable {e : Enclosure} {first : Bool} {p r s v : List Char}

theorem Within.endsNumber (h : Within e false s r) : EndsNumber s := by
  cases h with
  | close ha => exact endsNumber_closing.append ha
  | more ha => exact endsNumber_comma.append ha

/-- The first of the parts that are left. -/
theorem Written.exists_part (h : Written (.parts e) p) :
    ∃ l a v t, p ++ e.closing :: r = l ++ (a ++ (v ++ t)) ∧ Label e l ∧ Spaces a ∧
      Written .value v ∧ Within e false t r := by
  cases h with
  | last hl ha hv hb => exact ⟨_, _, _, _, by simp, hl, ha, hv, .close hb⟩
  | next hl ha hv hb hp => exact ⟨_, _, _, _, by simp, hl, ha, hv, .more hb hp⟩

/-- An enclosure is closed, or a part follows: what stands in front of its label, the label, and its
value. -/
theorem Within.cases (h : Within e first s r) : (∃ a, Spaces a ∧ s = a ++ e.closing :: r) ∨
    ∃ d l a v t, s = d ++ (l ++ (a ++ (v ++ t))) ∧ Lead first d ∧ Label e l ∧ Spaces a ∧
      Written .value v ∧ Within e false t r := by
  cases h with
  | close ha => exact .inl ⟨_, ha, rfl⟩
  | first hp =>
    obtain ⟨l, a, v, t, heq, hl, ha, hv, ht⟩ := hp.exists_part
    exact .inr ⟨[], l, a, v, t, heq, .first spaces_nil, hl, ha, hv, ht⟩
  | @more b p r hb hp =>
    obtain ⟨l, a, v, t, heq, hl, ha, hv, ht⟩ := hp.exists_part
    exact .inr ⟨b ++ [','], l, a, v, t, by simp [heq], .later hb spaces_nil, hl, ha, hv, ht⟩

theorem Within.nextElement (h : Within .array first s r) :
    nextElement first s = .ok (.closed r) ∨ ∃ v t, nextElement first s = .ok (.part (v ++ t)) ∧
      Written .value v ∧ Within .array false t r := by
  rcases h.cases with ⟨a, ha, rfl⟩ | ⟨d, l, a, v, t, rfl, hd, ⟨⟩, ha, hv, ht⟩
  · exact .inl (nextElement_eq_closed_iff.mpr ⟨a, ha, rfl⟩)
  · obtain ⟨c, w, rfl, hspace, hc⟩ := hv.exists_cons
    refine .inr ⟨c :: w, t, ?_, hv, ht⟩
    rw [List.nil_append, ← List.append_assoc]
    exact nextElement_append (hd.append ha) hspace hc

theorem Within.nextMember (h : Within .object first s r) :
    nextMember first s = .ok (.closed r) ∨ ∃ b c a v t,
      nextMember first s = .ok (.part (b ++ '"' :: (c ++ ':' :: (a ++ (v ++ t))))) ∧ StringForm b ∧
        Spaces c ∧ Spaces a ∧ Written .value v ∧ Within .object false t r := by
  rcases h.cases with ⟨a, ha, rfl⟩ | ⟨d, l, a, v, t, rfl, hd, hl, ha, hv, ht⟩
  · exact .inl (nextMember_eq_closed_iff.mpr ⟨a, ha, rfl⟩)
  · cases hl with
    | @object e b c he hb hc =>
      refine .inr ⟨b, c, a, v, t, ?_, hb, hc, ha, hv, ht⟩
      exact nextMember_eq_part_iff.mpr ⟨d ++ e, by simp, hd.append he⟩

/-- An array from which all has been read that one wants is at its end, or it is not. -/
theorem Within.scanArrayEnd (h : Within .array first s r) :
    scanArrayEnd s = .ok r ∨ scanArrayEnd s = .error .malformed := by
  rcases h.cases with ⟨a, ha, rfl⟩ | ⟨d, l, a, v, t, rfl, hd, ⟨⟩, ha, hv, ht⟩
  · exact .inl (scanArrayEnd_eq_ok_iff.mpr ⟨a, ha, rfl⟩)
  · right
    obtain ⟨c, w, rfl, hspace, hc⟩ := hv.exists_cons
    cases hd with
    | first hd =>
      rw [Json.scanArrayEnd, List.nil_append, skipSpaces_append hd, skipSpaces_append ha,
        List.cons_append, skipSpaces_cons hspace]
      exact if_neg hc
    | later hd =>
      rw [Json.scanArrayEnd, List.append_assoc, skipSpaces_append hd, List.cons_append,
        skipSpaces_cons rfl]
      rfl

/-- A value has no parts, or it is opened and what is left of it follows. -/
theorem Written.scalar_or_opening (h : Written .value v) :
    Scalar v ∨ ∃ e w, v = Enclosure.opening e :: w ∧ ∀ r, Within e true (w ++ r) r := by
  cases h with
  | scalar hv => exact .inl hv
  | @empty e a ha =>
    exact .inr ⟨e, _, rfl, fun r => by simpa using .close ha⟩
  | @full e p hp =>
    exact .inr ⟨e, _, rfl, fun r => by simpa using .first hp⟩

end Within

end Dataflow.Json
