import Dataflow.Proofs.Json.Tokens
import Mathlib.Data.Nat.Digits.Defs
import Mathlib.Tactic.IntervalCases

/-!
# The numbers of a JSON text

A number is a whole part without superfluous zeros, then perhaps a fraction and perhaps an exponent
(`Unsigned`).  It has no end of its own: it ends where nothing follows that could belong to it
(`EndsNumber`), and there a scanner finds its end as well.

For a reader of integers the main fact is that it takes a natural number in one spelling only, the
decimal digits that `Nat.toDigits` writes (`scanNumber_eq_natural_iff`).
-/

namespace Dataflow.Json

/-- One or more decimal digits. -/
def Digits (s : List Char) : Prop := s ≠ [] ∧ ∀ c ∈ s, c.isDigit = true

/-- Digits that begin with a zero only where the zero is all. -/
def Whole (s : List Char) : Prop := s = ['0'] ∨ Digits s ∧ s.head? ≠ some '0'

/-- The sign that an exponent may have. -/
inductive ExponentSign : List Char → Prop
  | absent : ExponentSign []
  | plus : ExponentSign ['+']
  | minus : ExponentSign ['-']

/-- The fraction that a number may have. -/
inductive Fraction : List Char → Prop
  | absent : Fraction []
  | digits {d : List Char} (hd : Digits d) : Fraction ('.' :: d)

/-- The exponent that a number may have. -/
inductive Exponent : List Char → Prop
  | absent : Exponent []
  | digits {mark : Char} {sign d : List Char} (hmark : mark = 'e' ∨ mark = 'E')
      (hsign : ExponentSign sign) (hd : Digits d) : Exponent (mark :: (sign ++ d))

/-- **A number, less its sign.** -/
def Unsigned (s : List Char) : Prop :=
  ∃ w f e, s = w ++ (f ++ e) ∧ Whole w ∧ Fraction f ∧ Exponent e

/-- **An integer**: its digits, behind a minus sign if it is negative. -/
inductive IntegerText : Int → List Char → Prop
  | natural {n : Nat} : IntegerText n (Nat.toDigits 10 n)
  | negative {n : Nat} (hn : 0 < n) : IntegerText (-n) ('-' :: Nat.toDigits 10 n)

/-- The text does not go on with a digit. -/
def EndsDigits (s : List Char) : Prop := ∀ c ∈ s.head?, c.isDigit = false

/-- The text does not go on with anything that could belong to a number before it. -/
def EndsNumber (s : List Char) : Prop :=
  ∀ c ∈ s.head?, c.isDigit = false ∧ c ≠ '.' ∧ c ≠ 'e' ∧ c ≠ 'E'

section Digits
variable {s r d : List Char} {c : Char}

theorem EndsNumber.endsDigits (h : EndsNumber r) : EndsDigits r := fun c hc => (h c hc).1

theorem leadingDigits_append (hd : ∀ c ∈ d, c.isDigit = true) (hr : EndsDigits r) :
    leadingDigits (d ++ r) = d := by
  rw [leadingDigits, List.takeWhile_append_of_pos hd]
  cases r with
  | nil => simp
  | cons c r => simp [hr c rfl]

theorem afterDigits_append (hd : ∀ c ∈ d, c.isDigit = true) (hr : EndsDigits r) :
    afterDigits (d ++ r) = r := by
  rw [afterDigits, List.dropWhile_append_of_pos hd]
  cases r with
  | nil => rfl
  | cons c r => simp [hr c rfl]

theorem endsDigits_afterDigits : EndsDigits (afterDigits s) := by
  intro c hc
  obtain ⟨rest, hrest⟩ : ∃ rest, s.dropWhile Char.isDigit = c :: rest :=
    List.head?_eq_some_iff.mp hc
  simpa [hrest] using List.head_dropWhile_not Char.isDigit (l := s) (by simp [hrest])

/-- A text is its leading digits and what follows them. -/
theorem exists_digits (s : List Char) :
    (∀ c ∈ leadingDigits s, c.isDigit = true) ∧ s = leadingDigits s ++ afterDigits s :=
  ⟨fun _ hc => List.mem_takeWhile_imp hc, (List.takeWhile_append_dropWhile ..).symm⟩

theorem skipDigits_eq_ok_iff : skipDigits s = .ok r ↔ ∃ d, s = d ++ r ∧ Digits d ∧ EndsDigits r := by
  constructor
  · intro h
    cases s with
    | nil => cases h
    | cons c rest =>
      rw [skipDigits] at h
      split at h
      · rename_i hc
        cases h
        obtain ⟨hdigits, hrest⟩ := exists_digits rest
        refine ⟨c :: leadingDigits rest, by rw [List.cons_append, ← hrest],
          ⟨List.cons_ne_nil _ _, ?_⟩, endsDigits_afterDigits⟩
        exact List.forall_mem_cons.mpr ⟨hc, hdigits⟩
      · cases h
  · rintro ⟨d, rfl, ⟨hne, hd⟩, hr⟩
    cases d with
    | nil => exact absurd rfl hne
    | cons c d =>
      rw [List.cons_append, skipDigits, if_pos (hd c List.mem_cons_self),
        afterDigits_append (fun c hc => hd c (List.mem_cons_of_mem _ hc)) hr]

theorem Whole.exists_cons (h : Whole s) : ∃ c d, s = c :: d ∧ c.isDigit = true := by
  obtain rfl | ⟨⟨hne, hdigits⟩, -⟩ := h
  · exact ⟨'0', [], rfl, rfl⟩
  · cases s with
    | nil => exact absurd rfl hne
    | cons c d => exact ⟨c, d, rfl, hdigits c List.mem_cons_self⟩

/-- What a whole number begins with is one as well. -/
theorem Whole.of_append (h : Whole (d ++ r)) (hd : d ≠ []) : Whole d := by
  cases d with
  | nil => exact absurd rfl hd
  | cons c d =>
    obtain h | ⟨⟨-, hdigits⟩, hhead⟩ := h
    · obtain ⟨rfl, hrest⟩ := List.cons.inj h
      rw [(List.append_eq_nil_iff.mp hrest).1]
      exact .inl rfl
    · exact .inr ⟨⟨hd, fun e he => hdigits e (List.mem_append_left r he)⟩, hhead⟩

theorem Whole.unsigned (h : Whole s) : Unsigned s :=
  ⟨s, [], [], (List.append_nil s).symm, h, .absent, .absent⟩

theorem Unsigned.exists_cons (h : Unsigned s) : ∃ c d, s = c :: d ∧ c.isDigit = true := by
  obtain ⟨w, f, e, rfl, hw, -, -⟩ := h
  obtain ⟨c, d, rfl, hc⟩ := hw.exists_cons
  exact ⟨c, d ++ (f ++ e), rfl, hc⟩

end Digits

/-! ## Numbers that nobody looks at -/

section Skipping
variable {s r : List Char}

theorem exponentSign_append {sign d : List Char} (hsign : ExponentSign sign) (hd : Digits d) :
    (exponentSign (sign ++ d ++ r)).2 = d ++ r := by
  cases hsign with
  | plus => rfl
  | minus => rfl
  | absent =>
    obtain ⟨hne, hdigits⟩ := hd
    cases d with
    | nil => exact absurd rfl hne
    | cons c d =>
      have hc := hdigits c List.mem_cons_self
      unfold exponentSign
      split
      · simp_all
      · simp_all
      · rfl

theorem exists_exponentSign (s : List Char) :
    ∃ sign, ExponentSign sign ∧ s = sign ++ (exponentSign s).2 := by
  unfold exponentSign
  split
  · exact ⟨_, .plus, rfl⟩
  · exact ⟨_, .minus, rfl⟩
  · exact ⟨_, .absent, rfl⟩

/-- The exponent that follows the mark. -/
theorem exponent_of_skipDigits {mark : Char} {rest : List Char} (hmark : mark = 'e' ∨ mark = 'E')
    (h : skipDigits (exponentSign rest).2 = .ok r) : ∃ e, mark :: rest = e ++ r ∧ Exponent e := by
  obtain ⟨sign, hsign, hrest⟩ := exists_exponentSign rest
  obtain ⟨d, hd, hdigits, -⟩ := skipDigits_eq_ok_iff.mp h
  refine ⟨mark :: (sign ++ d), ?_, .digits hmark hsign hdigits⟩
  rw [hrest, hd]
  simp

theorem exponent_of_skipExponent (h : skipExponent s = .ok r) : ∃ e, s = e ++ r ∧ Exponent e := by
  unfold skipExponent at h
  split at h
  · exact exponent_of_skipDigits (.inl rfl) h
  · exact exponent_of_skipDigits (.inr rfl) h
  · cases h
    exact ⟨[], rfl, .absent⟩

theorem skipExponent_append {e : List Char} (he : Exponent e) (hr : EndsNumber r) :
    skipExponent (e ++ r) = .ok r := by
  cases he with
  | absent =>
    rw [List.nil_append]
    unfold skipExponent
    split
    · exact absurd rfl (hr _ rfl).2.2.1
    · exact absurd rfl (hr _ rfl).2.2.2
    · rfl
  | @digits mark sign d hmark hsign hd =>
    have hskip : skipDigits (exponentSign (sign ++ d ++ r)).2 = .ok r := by
      rw [exponentSign_append hsign hd]
      exact skipDigits_eq_ok_iff.mpr ⟨d, rfl, hd, hr.endsDigits⟩
    obtain rfl | rfl := hmark
    · exact hskip
    · exact hskip

/-- What an exponent begins with is no digit and no point. -/
theorem Exponent.head_append {e : List Char} (he : Exponent e) (hr : EndsNumber r) :
    ∀ c ∈ (e ++ r).head?, c.isDigit = false ∧ c ≠ '.' := by
  cases he with
  | absent => exact fun c hc => ⟨(hr c hc).1, (hr c hc).2.1⟩
  | digits hmark hsign hd =>
    intro c hc
    obtain rfl := Option.some.inj hc
    obtain rfl | rfl := hmark
    · decide
    · decide

theorem fraction_of_skipFraction (h : skipFraction s = .ok r) :
    ∃ f e, s = f ++ e ++ r ∧ Fraction f ∧ Exponent e := by
  unfold skipFraction at h
  split at h
  · obtain ⟨rest, hdigits, hexponent⟩ := bind_eq_ok.mp h
    obtain ⟨d, rfl, hd, -⟩ := skipDigits_eq_ok_iff.mp hdigits
    obtain ⟨e, rfl, he⟩ := exponent_of_skipExponent hexponent
    exact ⟨'.' :: d, e, by simp, .digits hd, he⟩
  · obtain ⟨e, rfl, he⟩ := exponent_of_skipExponent h
    exact ⟨[], e, rfl, .absent, he⟩

theorem skipFraction_append {f e : List Char} (hf : Fraction f) (he : Exponent e)
    (hr : EndsNumber r) : skipFraction (f ++ e ++ r) = .ok r := by
  have hhead := he.head_append hr
  cases hf with
  | absent =>
    rw [List.nil_append]
    unfold skipFraction
    split
    · rename_i rest heq
      rw [heq] at hhead
      exact absurd rfl (hhead '.' rfl).2
    · exact skipExponent_append he hr
  | @digits d hd =>
    have hskip : skipDigits (d ++ (e ++ r)) = .ok (e ++ r) :=
      skipDigits_eq_ok_iff.mpr ⟨d, rfl, hd, fun c hc => (hhead c hc).1⟩
    rw [List.append_assoc, List.cons_append, skipFraction, hskip]
    exact skipExponent_append he hr

theorem Fraction.endsDigits_append {f e : List Char} (hf : Fraction f) (he : Exponent e)
    (hr : EndsNumber r) : EndsDigits (f ++ e ++ r) := by
  cases hf with
  | absent => exact fun c hc => (he.head_append hr c hc).1
  | digits hd =>
    intro c hc
    obtain rfl := Option.some.inj hc
    decide

/-- **What is passed over is a number.** -/
theorem unsigned_of_skipNumber (h : skipNumber s = .ok r) : ∃ n, s = n ++ r ∧ Unsigned n := by
  cases s with
  | nil => cases h
  | cons c rest =>
    rw [skipNumber] at h
    split at h
    · rename_i hc
      subst hc
      split at h
      · obtain ⟨f, e, rfl, hf, he⟩ := fraction_of_skipFraction h
        exact ⟨'0' :: (f ++ e), by simp, ['0'], f, e, rfl, .inl rfl, hf, he⟩
      · cases h
    · rename_i hzero
      split at h
      · rename_i hc
        obtain ⟨hdigits, hrest⟩ := exists_digits rest
        obtain ⟨f, e, hafter, hf, he⟩ := fraction_of_skipFraction h
        refine ⟨c :: leadingDigits rest ++ (f ++ e), ?_, c :: leadingDigits rest, f, e, rfl,
          .inr ⟨⟨List.cons_ne_nil _ _, List.forall_mem_cons.mpr ⟨hc, hdigits⟩⟩, ?_⟩, hf, he⟩
        · rw [List.append_assoc, ← hafter, List.cons_append, ← hrest]
        · simpa using hzero
      · cases h

/-- **A number is passed over as a whole**, where nothing follows that could belong to it. -/
theorem skipNumber_append {n : List Char} (hn : Unsigned n) (hr : EndsNumber r) :
    skipNumber (n ++ r) = .ok r := by
  obtain ⟨w, f, e, rfl, hw, hf, he⟩ := hn
  have hends := hf.endsDigits_append he hr
  have hskip := skipFraction_append hf he hr
  rw [List.append_assoc]
  obtain rfl | ⟨⟨hne, hdigits⟩, hhead⟩ := hw
  · have hzeros : leadingDigits (f ++ e ++ r) = [] :=
      leadingDigits_append (d := []) (fun _ h => nomatch h) hends
    rw [List.cons_append, List.nil_append, skipNumber, if_pos rfl, if_pos hzeros, hskip]
  · cases w with
    | nil => exact absurd rfl hne
    | cons c w =>
      have hc : c ≠ '0' := by simpa using hhead
      have hw : ∀ c ∈ w, c.isDigit = true := fun c hc => hdigits c (List.mem_cons_of_mem _ hc)
      rw [List.cons_append, skipNumber, if_neg hc, if_pos (hdigits c List.mem_cons_self),
        afterDigits_append hw hends, hskip]

end Skipping

/-! ## Natural numbers -/

section Naturals
variable {s r d : List Char} {n m : Nat}

theorem digitChar_of_isDigit {c : Char} (hc : c.isDigit = true) :
    (c.toNat - '0'.toNat).digitChar = c := by
  obtain ⟨hlow, hhigh⟩ := Char.isDigit_iff_toNat.mp hc
  have heq : c = Char.ofNat c.toNat := (Char.ofNat_toNat c).symm
  have hlow : 48 ≤ c.toNat := hlow
  have hhigh : c.toNat ≤ 57 := hhigh
  generalize c.toNat = k at heq hlow hhigh
  subst heq
  interval_cases k <;> rfl

theorem toNat_sub_of_isDigit {c : Char} (hc : c.isDigit = true) : c.toNat - '0'.toNat < 10 := by
  have hhigh : c.toNat ≤ 57 := (Char.isDigit_iff_toNat.mp hc).2
  have hzero : '0'.toNat = 48 := rfl
  omega

/-- More digits behind a number other than zero. -/
theorem toDigits_ofDigitChars (hd : ∀ c ∈ d, c.isDigit = true) (hm : 0 < m) :
    Nat.toDigits 10 (Nat.ofDigitChars 10 d m) = Nat.toDigits 10 m ++ d := by
  induction d generalizing m with
  | nil => simp [Nat.ofDigitChars_nil]
  | cons c d ih =>
    obtain ⟨hc, hd⟩ := List.forall_mem_cons.mp hd
    have hlt := toNat_sub_of_isDigit hc
    rw [Nat.ofDigitChars_cons, ih hd (by omega), ← Nat.toDigits_append_toDigits (by omega) hm hlt,
      Nat.toDigits_of_lt_base hlt, digitChar_of_isDigit hc, List.append_assoc, List.singleton_append]

/-- **A whole number has one spelling.** -/
theorem toDigits_of_whole (h : Whole d) : Nat.toDigits 10 (Nat.ofDigitChars 10 d 0) = d := by
  obtain rfl | ⟨⟨hne, hdigits⟩, hhead⟩ := h
  · rfl
  · cases d with
    | nil => exact absurd rfl hne
    | cons c d =>
      obtain ⟨hc, hd⟩ := List.forall_mem_cons.mp hdigits
      have hpos : 0 < c.toNat - '0'.toNat := by
        refine Nat.pos_of_ne_zero fun hzero => hhead ?_
        rw [← digitChar_of_isDigit hc, hzero]
        rfl
      have hlt := toNat_sub_of_isDigit hc
      rw [Nat.ofDigitChars_cons, Nat.mul_zero, Nat.zero_add, toDigits_ofDigitChars hd hpos,
        Nat.toDigits_of_lt_base hlt, digitChar_of_isDigit hc, List.singleton_append]

theorem head?_toDigits_ne (hn : 0 < n) : (Nat.toDigits 10 n).head? ≠ some '0' := by
  induction n using Nat.strong_induction_on with
  | _ n ih =>
    by_cases hlt : n < 10
    · rw [Nat.toDigits_of_lt_base hlt]
      interval_cases n <;> decide
    · -- The digits of a tenth of the number come first, and there are some.
      obtain ⟨c, d, hd⟩ := List.exists_cons_of_ne_nil (Nat.toDigits_ne_nil (n := n / 10) (b := 10))
      have hhead := ih (n / 10) (by omega) (by omega)
      rw [Nat.toDigits_of_base_le (by omega) (by omega), hd]
      rwa [hd] at hhead

theorem whole_toDigits : Whole (Nat.toDigits 10 n) := by
  obtain rfl | hn := Nat.eq_zero_or_pos n
  · exact .inl rfl
  · refine .inr ⟨⟨Nat.toDigits_ne_nil, fun c hc => ?_⟩, head?_toDigits_ne hn⟩
    exact Nat.isDigit_of_mem_toDigits (by omega) (by omega) hc

theorem ofDigitChars_cons_eq {c : Char} :
    Nat.ofDigitChars 10 (c :: d) m = Nat.ofDigitChars 10 d (m * 10 + digitValue c) := by
  rw [Nat.ofDigitChars_cons, Nat.mul_comm]
  rfl

theorem le_ofDigitChars : m ≤ Nat.ofDigitChars 10 d m := by
  induction d generalizing m with
  | nil => rw [Nat.ofDigitChars_nil]
  | cons c d ih =>
    rw [ofDigitChars_cons_eq]
    exact Nat.le_trans (by omega) ih

/-- Digits find room exactly if the number that they make fits. -/
theorem appendDigits_eq_iff (hm : m < wordLimit) :
    appendDigits m d = (n, 0) ↔ Nat.ofDigitChars 10 d m = n ∧ n < wordLimit := by
  induction d generalizing m with
  | nil =>
    rw [appendDigits, Nat.ofDigitChars_nil, Prod.mk.injEq]
    constructor
    · rintro ⟨rfl, -⟩
      exact ⟨rfl, hm⟩
    · rintro ⟨rfl, -⟩
      exact ⟨rfl, rfl⟩
  | cons c d ih =>
    rw [appendDigits, ofDigitChars_cons_eq]
    split
    · rename_i hlt
      exact ih hlt
    · rename_i hge
      have hle : m * 10 + digitValue c ≤ Nat.ofDigitChars 10 d (m * 10 + digitValue c) :=
        le_ofDigitChars
      constructor
      · intro h
        exact absurd (congrArg Prod.snd h) (Nat.succ_ne_zero _)
      · rintro ⟨rfl, hlt⟩
        omega

end Naturals

/-! ## Numbers that are read -/

section Reading
variable {s r : List Char} {m n lost : Nat} {e k : Int} {negative : Bool}

theorem float_ne_integer : float m e s ≠ .ok (.integer k, r) := by
  unfold float
  split
  · simp
  · simp

theorem scanExponent_ne_integer : scanExponent m e s ≠ .ok (.integer k, r) := by
  simp only [scanExponent]
  split
  · simp
  · exact float_ne_integer

theorem scanFraction_ne_integer : scanFraction m e s ≠ .ok (.integer k, r) := by
  simp only [scanFraction]
  split
  · simp
  · split
    · exact scanExponent_ne_integer
    · exact scanExponent_ne_integer
    · exact float_ne_integer

theorem wholeNumber_eq_natural_iff : wholeNumber negative m lost s = .ok (.integer n, r) ↔
    negative = false ∧ lost = 0 ∧ n = m ∧ r = s := by
  unfold wholeNumber
  split
  · rename_i hlost
    exact iff_of_false float_ne_integer fun h => hlost h.2.1
  · rename_i hlost
    have hlost : lost = 0 := by simpa using hlost
    split
    · rename_i hneg
      refine iff_of_false ?_ fun h => by simp [h.1] at hneg
      split
      · simp
      · simp only [Except.ok.injEq, Prod.mk.injEq, Number.integer.injEq]
        omega
    · rename_i hneg
      simp only [Except.ok.injEq, Prod.mk.injEq, Number.integer.injEq]
      have hneg : negative = false := by simpa using hneg
      constructor
      · rintro ⟨hm, rfl⟩
        exact ⟨hneg, hlost, by omega, rfl⟩
      · rintro ⟨-, -, rfl, rfl⟩
        exact ⟨rfl, rfl⟩

theorem scanAfterInteger_eq_natural_iff (hs : EndsDigits s) :
    scanAfterInteger negative m lost s = .ok (.integer n, r) ↔
      EndsNumber s ∧ negative = false ∧ lost = 0 ∧ n = m ∧ r = s := by
  unfold scanAfterInteger
  split
  · exact iff_of_false scanFraction_ne_integer fun h => (h.1 _ rfl).2.1 rfl
  · exact iff_of_false scanExponent_ne_integer fun h => (h.1 _ rfl).2.2.1 rfl
  · exact iff_of_false scanExponent_ne_integer fun h => (h.1 _ rfl).2.2.2 rfl
  · rename_i hpoint hlower hupper
    have hends : EndsNumber s := by
      intro c hc
      obtain ⟨rest, rfl⟩ := List.head?_eq_some_iff.mp hc
      refine ⟨hs c hc, ?_, ?_, ?_⟩
      · rintro rfl
        exact hpoint rest rfl
      · rintro rfl
        exact hlower rest rfl
      · rintro rfl
        exact hupper rest rfl
    rw [wholeNumber_eq_natural_iff]
    exact (and_iff_right hends).symm

theorem natural_of_scanUnsigned (h : scanUnsigned negative s = .ok (.integer n, r)) :
    negative = false ∧ ∃ d, s = d ++ r ∧ Whole d ∧ EndsNumber r ∧
      Nat.ofDigitChars 10 d 0 = n ∧ n < wordLimit := by
  cases s with
  | nil => cases h
  | cons c rest =>
    rw [scanUnsigned] at h
    split at h
    · rename_i hc
      subst hc
      split at h
      · rename_i hdigits
        have hrest := (exists_digits rest).2
        rw [hdigits, List.nil_append] at hrest
        obtain ⟨hends, hneg, -, rfl, rfl⟩ :=
          (scanAfterInteger_eq_natural_iff (hrest ▸ endsDigits_afterDigits)).mp h
        exact ⟨hneg, ['0'], rfl, .inl rfl, hends, rfl, by decide⟩
      · cases h
    · rename_i hzero
      split at h
      · rename_i hc
        obtain ⟨hdigits, hrest⟩ := exists_digits rest
        rcases happend : appendDigits 0 (c :: leadingDigits rest) with ⟨m, lost⟩
        rw [happend] at h
        obtain ⟨hends, hneg, rfl, rfl, rfl⟩ :=
          (scanAfterInteger_eq_natural_iff endsDigits_afterDigits).mp h
        refine ⟨hneg, c :: leadingDigits rest, by rw [List.cons_append, ← hrest],
          .inr ⟨⟨List.cons_ne_nil _ _, List.forall_mem_cons.mpr ⟨hc, hdigits⟩⟩, ?_⟩, hends,
          (appendDigits_eq_iff (by decide)).mp happend⟩
        simpa using hzero
      · cases h

/-- Where nothing more belongs to a number, its digits are all of it. -/
theorem scanAfterInteger_of_endsNumber (hs : EndsNumber s) :
    scanAfterInteger negative m lost s = wholeNumber negative m lost s := by
  unfold scanAfterInteger
  split
  · exact absurd rfl (hs _ rfl).2.1
  · exact absurd rfl (hs _ rfl).2.2.1
  · exact absurd rfl (hs _ rfl).2.2.2
  · rfl

theorem scanUnsigned_append {d : List Char} (hd : Whole d) (hr : EndsNumber r)
    (hn : Nat.ofDigitChars 10 d 0 = n) (hlt : n < wordLimit) :
    scanUnsigned negative (d ++ r) = wholeNumber negative n 0 r := by
  obtain rfl | ⟨⟨hne, hdigits⟩, hhead⟩ := hd
  · have hzeros : leadingDigits r = [] :=
      leadingDigits_append (d := []) (fun _ h => nomatch h) hr.endsDigits
    rw [List.cons_append, List.nil_append, scanUnsigned, if_pos rfl, if_pos hzeros,
      scanAfterInteger_of_endsNumber hr, ← hn]
    rfl
  · cases d with
    | nil => exact absurd rfl hne
    | cons c d =>
      have hc : c ≠ '0' := by simpa using hhead
      have hd : ∀ c ∈ d, c.isDigit = true := fun c hc => hdigits c (List.mem_cons_of_mem _ hc)
      have happend : appendDigits 0 (c :: d) = (n, 0) :=
        (appendDigits_eq_iff (by decide)).mpr ⟨hn, hlt⟩
      rw [List.cons_append, scanUnsigned, if_neg hc, if_pos (hdigits c List.mem_cons_self),
        leadingDigits_append hd hr.endsDigits, afterDigits_append hd hr.endsDigits, happend]
      exact scanAfterInteger_of_endsNumber hr

/-- **A natural number is read from its digits, and from nothing else.** -/
theorem scanNumber_eq_natural_iff : scanNumber s = .ok (.integer n, r) ↔
    s = Nat.toDigits 10 n ++ r ∧ EndsNumber r ∧ n < wordLimit := by
  constructor
  · intro h
    unfold scanNumber at h
    split at h
    · exact absurd (natural_of_scanUnsigned h).1 (by decide)
    · obtain ⟨-, d, rfl, hd, hr, rfl, hlt⟩ := natural_of_scanUnsigned h
      exact ⟨by rw [toDigits_of_whole hd], hr, hlt⟩
  · rintro ⟨rfl, hr, hlt⟩
    have hscan : scanUnsigned false (Nat.toDigits 10 n ++ r) = .ok (.integer n, r) :=
      scanUnsigned_append whole_toDigits hr Nat.ofDigitChars_ten_toDigits hlt
    unfold scanNumber
    split
    · rename_i rest heq
      obtain ⟨c, d, hd, hc⟩ := (whole_toDigits (n := n)).exists_cons
      rw [hd, List.cons_append, List.cons.injEq] at heq
      rw [heq.1] at hc
      cases hc
    · exact hscan

/-- **An integer that fits 64 bits is read as it is written.** -/
theorem scanNumber_integer {v : List Char} (hv : IntegerText k v) (hlow : -(2 ^ 63) ≤ k)
    (hhigh : k < 2 ^ 64) (hr : EndsNumber r) : scanNumber (v ++ r) = .ok (.integer k, r) := by
  cases hv with
  | natural => exact scanNumber_eq_natural_iff.mpr ⟨rfl, hr, by unfold wordLimit; omega⟩
  | @negative n hn =>
    have hlimit : ¬ (n = 0 ∨ signLimit < n) := by unfold signLimit; omega
    have hlt : n < wordLimit := by unfold wordLimit; omega
    rw [List.cons_append, scanNumber,
      scanUnsigned_append whole_toDigits hr Nat.ofDigitChars_ten_toDigits hlt, wholeNumber,
      if_neg (fun h => h rfl), if_pos rfl, if_neg hlimit]

end Reading

end Dataflow.Json
