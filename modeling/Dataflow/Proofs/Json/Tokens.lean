import Dataflow.Json.Part
import Dataflow.Proofs.Transform.Building
import Mathlib.Data.List.TakeWhile

/-!
# The spaces and strings of a JSON text

What a scanner accepts is said here without the scanner, as the texts that a token can be: spaces, and
strings with their escapes and what they stand for.  A scanner succeeds exactly on a text that begins
with such a token, and it stops right behind it.

A string that is read and a string that is passed over differ in one thing: where it is read, the halves
of surrogate pairs have to meet (`Spells`), and where it is not, any code unit will do (`StringForm`).
-/

namespace Dataflow.Json

/-! ## Spaces -/

/-- Nothing but spaces. -/
def Spaces (s : List Char) : Prop := ∀ c ∈ s, isSpace c = true

section Spaces
variable {a s r : List Char} {c : Char}

theorem spaces_nil : Spaces [] := fun _ h => nomatch h

theorem skipSpaces_append (ha : Spaces a) : skipSpaces (a ++ s) = skipSpaces s :=
  List.dropWhile_append_of_pos ha

theorem skipSpaces_cons (hc : isSpace c = false) : skipSpaces (c :: s) = c :: s := by
  rw [skipSpaces, List.dropWhile_cons_of_neg (by simp [hc])]

/-- What is left of a text without its first spaces. -/
theorem exists_spaces (s : List Char) : ∃ a, Spaces a ∧ s = a ++ skipSpaces s :=
  ⟨s.takeWhile isSpace, fun _ hc => List.mem_takeWhile_imp hc,
    (List.takeWhile_append_dropWhile ..).symm⟩

theorem skipSpaces_eq_nil_iff : skipSpaces s = [] ↔ Spaces s := by
  exact List.dropWhile_eq_nil_iff

theorem skipSpaces_eq_cons_iff : skipSpaces s = c :: r ↔
    ∃ a, Spaces a ∧ isSpace c = false ∧ s = a ++ c :: r := by
  constructor
  · intro h
    obtain ⟨a, ha, hs⟩ := exists_spaces s
    have hdrop : s.dropWhile isSpace = c :: r := h
    have hc : isSpace c = false := by
      simpa [hdrop] using List.head_dropWhile_not isSpace (l := s) (by simp [hdrop])
    exact ⟨a, ha, hc, h ▸ hs⟩
  · rintro ⟨a, ha, hc, rfl⟩
    rw [skipSpaces_append ha, skipSpaces_cons hc]

/-- What follows one character that is due, and the spaces in front of it. -/
def scanChar (d : Char) (s : List Char) : Except Fault (List Char) :=
  match skipSpaces s with
  | [] => .error .truncated
  | c :: rest => if c = d then .ok rest else .error .malformed

theorem scanChar_eq_ok_iff (hc : isSpace c = false) :
    scanChar c s = .ok r ↔ ∃ a, Spaces a ∧ s = a ++ c :: r := by
  unfold scanChar
  constructor
  · intro h
    split at h
    · cases h
    · rename_i d rest hs
      split at h
      · rename_i hd
        subst hd
        cases h
        obtain ⟨a, ha, -, rfl⟩ := skipSpaces_eq_cons_iff.mp hs
        exact ⟨a, ha, rfl⟩
      · cases h
  · rintro ⟨a, ha, rfl⟩
    rw [skipSpaces_append ha, skipSpaces_cons hc]
    exact if_pos rfl

end Spaces

/-! ## Strings -/

/-- Four hexadecimal digits for this number. -/
def CodeUnit (s : List Char) (n : Nat) : Prop :=
  ∃ a b c d i j k l, s = [a, b, c, d] ∧ hexDigit? a = some i ∧ hexDigit? b = some j ∧
    hexDigit? c = some k ∧ hexDigit? d = some l ∧ n = ((i * 16 + j) * 16 + k) * 16 + l

/-- What stands behind a backslash, and the character that it is for. -/
inductive Escape : List Char → Char → Prop
  | letter {c d : Char} (h : simpleEscape? c = some d) : Escape [c] d
  | unit {s : List Char} {n : Nat} (h : CodeUnit s n) (hlow : isLowSurrogate n = false)
      (hhigh : isHighSurrogate n = false) : Escape ('u' :: s) (Char.ofNat n)
  | pair {s t : List Char} {high low : Nat} (hs : CodeUnit s high)
      (hhigh : isHighSurrogate high = true) (ht : CodeUnit t low)
      (hlow : isLowSurrogate low = true) :
      Escape ('u' :: s ++ '\\' :: 'u' :: t) (pairedChar high low)

/-- A character that stands for itself in a string. -/
def IsPlain (c : Char) : Prop := c ≠ '"' ∧ c ≠ '\\' ∧ ¬ c.toNat < 0x20

instance : DecidablePred IsPlain := fun c =>
  inferInstanceAs (Decidable (c ≠ '"' ∧ c ≠ '\\' ∧ ¬ c.toNat < 0x20))

/-- **The text between the quotes of a string, and the characters that it spells.** -/
inductive Spells : List Char → List Char → Prop
  | nil : Spells [] []
  | plain {c : Char} {s t : List Char} (hc : IsPlain c) (h : Spells s t) :
      Spells (c :: s) (c :: t)
  | escape {e s t : List Char} {d : Char} (he : Escape e d) (h : Spells s t) :
      Spells ('\\' :: e ++ s) (d :: t)

/-- The form of an escape, whether it stands for a character or not. -/
inductive EscapeForm : List Char → Prop
  | letter {c : Char} (h : (simpleEscape? c).isSome = true) : EscapeForm [c]
  | unit {s : List Char} {n : Nat} (h : CodeUnit s n) : EscapeForm ('u' :: s)

/-- **The text between the quotes of a string that nobody looks at.** -/
inductive StringForm : List Char → Prop
  | nil : StringForm []
  | plain {c : Char} {s : List Char} (hc : IsPlain c) (h : StringForm s) : StringForm (c :: s)
  | escape {e s : List Char} (he : EscapeForm e) (h : StringForm s) :
      StringForm ('\\' :: e ++ s)

section Strings
variable {s r : List Char}

theorem scanCodeUnit_eq_ok_iff {n : Nat} :
    scanCodeUnit s = .ok (n, r) ↔ ∃ u, s = u ++ r ∧ CodeUnit u n := by
  constructor
  · intro h
    unfold scanCodeUnit at h
    split at h
    · rename_i a b c d rest
      split at h
      · rename_i i j k l ha hb hc hd
        cases h
        exact ⟨[a, b, c, d], rfl, a, b, c, d, i, j, k, l, rfl, ha, hb, hc, hd, rfl⟩
      · cases h
    · cases h
  · rintro ⟨u, rfl, a, b, c, d, i, j, k, l, rfl, ha, hb, hc, hd, rfl⟩
    simp only [List.cons_append, List.nil_append, scanCodeUnit, ha, hb, hc, hd]

theorem scanLowSurrogate_eq_ok_iff {high : Nat} {c : Char} :
    scanLowSurrogate high s = .ok (c, r) ↔ ∃ u low, s = '\\' :: 'u' :: u ++ r ∧ CodeUnit u low ∧
      isLowSurrogate low = true ∧ c = pairedChar high low := by
  constructor
  · intro h
    unfold scanLowSurrogate at h
    split at h
    · cases h
    · cases h
    · obtain ⟨⟨low, rest⟩, hunit, hpair⟩ := bind_eq_ok.mp h
      obtain ⟨u, rfl, hu⟩ := scanCodeUnit_eq_ok_iff.mp hunit
      dsimp only at hpair
      split at hpair
      · rename_i hlow
        simp only [Except.ok.injEq, Prod.mk.injEq] at hpair
        exact ⟨u, low, by rw [← hpair.2]; rfl, hu, hlow, hpair.1.symm⟩
      · cases hpair
    · cases h
  · rintro ⟨u, low, rfl, hu, hlow, hc⟩
    have hunit : scanCodeUnit (u ++ r) = .ok (low, r) := scanCodeUnit_eq_ok_iff.mpr ⟨u, rfl, hu⟩
    rw [List.cons_append, List.cons_append, scanLowSurrogate, hunit]
    refine (if_pos hlow).trans ?_
    rw [hc]

theorem not_isLowSurrogate {n : Nat} (h : isHighSurrogate n = true) :
    isLowSurrogate n = false := by
  simp only [isHighSurrogate, Bool.and_eq_true, decide_eq_true_eq] at h
  simp only [isLowSurrogate, Bool.and_eq_false_iff, decide_eq_false_iff_not]
  omega

theorem scanUnicode_eq_ok_iff {d : Char} :
    scanUnicode s = .ok (d, r) ↔ ∃ e, s = e ++ r ∧ Escape ('u' :: e) d := by
  constructor
  · intro h
    unfold scanUnicode at h
    obtain ⟨⟨n, rest⟩, hunit, hkind⟩ := bind_eq_ok.mp h
    obtain ⟨u, rfl, hu⟩ := scanCodeUnit_eq_ok_iff.mp hunit
    dsimp only at hkind
    split at hkind
    · cases hkind
    · rename_i hlow
      split at hkind
      · rename_i hhigh
        obtain ⟨v, low, rfl, hv, hlow', hd⟩ := scanLowSurrogate_eq_ok_iff.mp hkind
        exact ⟨u ++ '\\' :: 'u' :: v, by simp, hd ▸ .pair hu hhigh hv hlow'⟩
      · rename_i hhigh
        cases hkind
        exact ⟨u, rfl, .unit hu (Bool.eq_false_iff.mpr hlow) (Bool.eq_false_iff.mpr hhigh)⟩
  · rintro ⟨e, rfl, he⟩
    unfold scanUnicode
    cases he with
    | letter h => cases h
    | @unit u n hu hlow hhigh =>
      refine bind_eq_ok.mpr ⟨(n, r), scanCodeUnit_eq_ok_iff.mpr ⟨e, rfl, hu⟩, ?_⟩
      simp only [hlow, hhigh, Bool.false_eq_true, if_false]
    | @pair u v high low hu hhigh hv hlow =>
      refine bind_eq_ok.mpr ⟨(high, '\\' :: 'u' :: v ++ r),
        scanCodeUnit_eq_ok_iff.mpr ⟨u, by simp, hu⟩, ?_⟩
      simp only [not_isLowSurrogate hhigh, hhigh, Bool.false_eq_true, if_false, if_true]
      exact scanLowSurrogate_eq_ok_iff.mpr ⟨v, low, rfl, hv, hlow, rfl⟩

theorem scanEscape_eq_ok_iff {d : Char} :
    scanEscape s = .ok (d, r) ↔ ∃ e, s = e ++ r ∧ Escape e d := by
  constructor
  · intro h
    cases s with
    | nil => cases h
    | cons c rest =>
      rw [scanEscape] at h
      split at h
      · rename_i hc
        subst hc
        obtain ⟨e, rfl, he⟩ := scanUnicode_eq_ok_iff.mp h
        exact ⟨'u' :: e, rfl, he⟩
      · split at h
        · rename_i d' hd
          cases h
          exact ⟨[c], rfl, .letter hd⟩
        · cases h
  · rintro ⟨e, rfl, he⟩
    cases e with
    | nil => cases he
    | cons c e =>
      rw [List.cons_append, scanEscape]
      by_cases hc : c = 'u'
      · subst hc
        rw [if_pos rfl]
        exact scanUnicode_eq_ok_iff.mpr ⟨e, rfl, he⟩
      · rw [if_neg hc]
        cases he with
        | letter h => rw [h]; rfl
        | unit => exact absurd rfl hc
        | pair => exact absurd rfl hc

theorem skipEscape_eq_ok_iff : skipEscape s = .ok r ↔ ∃ e, s = e ++ r ∧ EscapeForm e := by
  constructor
  · intro h
    cases s with
    | nil => cases h
    | cons c rest =>
      rw [skipEscape] at h
      split at h
      · rename_i hc
        subst hc
        cases hu : scanCodeUnit rest with
        | error f =>
          rw [hu] at h
          cases h
        | ok p =>
          rw [hu] at h
          cases h
          obtain ⟨u, rfl, hunit⟩ := scanCodeUnit_eq_ok_iff.mp hu
          exact ⟨'u' :: u, rfl, .unit hunit⟩
      · split at h
        · rename_i hc
          cases h
          exact ⟨[c], rfl, .letter hc⟩
        · cases h
  · rintro ⟨e, rfl, he⟩
    cases he with
    | @letter c h =>
      have hne : c ≠ 'u' := by
        rintro rfl
        cases h
      simp only [List.cons_append, List.nil_append, skipEscape, if_neg hne, h, if_true]
    | @unit u n h =>
      rw [List.cons_append, skipEscape, if_pos rfl,
        scanCodeUnit_eq_ok_iff.mpr ⟨u, rfl, h⟩]
      rfl

/-- Plain characters spell themselves. -/
theorem Spells.self (h : s.all (fun c => decide (IsPlain c)) = true) : Spells s s := by
  induction s with
  | nil => exact .nil
  | cons c s ih =>
    rw [List.all_cons, Bool.and_eq_true, decide_eq_true_eq] at h
    exact .plain h.1 (ih h.2)

theorem scanString_plain {c : Char} (hc : IsPlain c) :
    scanString (c :: s) = (scanString s).map fun p => (c :: p.1, p.2) := by
  rw [scanString, if_neg hc.1, if_neg hc.2.1, if_neg hc.2.2]

theorem scanString_escape {d : Char} (h : scanEscape s = .ok (d, r)) :
    scanString ('\\' :: s) = (scanString r).map fun p => (d :: p.1, p.2) := by
  rw [scanString, if_neg (by decide), if_pos rfl]
  split
  · rename_i herror
    rw [h] at herror
    cases herror
  · rename_i hok
    rw [h] at hok
    cases hok
    rfl

theorem scanString_of_escape_error {f : Fault} (h : scanEscape s = .error f) :
    scanString ('\\' :: s) = .error f := by
  rw [scanString, if_neg (by decide), if_pos rfl]
  split
  · rename_i herror
    rw [h] at herror
    cases herror
    rfl
  · rename_i hok
    rw [h] at hok
    cases hok

/-- **A string is read as what it spells.** -/
theorem scanString_eq_ok_iff {t : List Char} :
    scanString s = .ok (t, r) ↔ ∃ b, s = b ++ '"' :: r ∧ Spells b t := by
  constructor
  · intro h
    fun_induction scanString s generalizing t with
    | case1 => cases h
    | case2 rest =>
      cases h
      exact ⟨[], rfl, .nil⟩
    | case3 => cases h
    | case4 rest d rest' he hne ih =>
      obtain ⟨e, rfl, hescape⟩ := scanEscape_eq_ok_iff.mp he
      cases hs : scanString rest' with
      | error f =>
        rw [hs] at h
        cases h
      | ok p =>
        rw [hs] at h
        cases h
        obtain ⟨b, rfl, hb⟩ := ih hs
        exact ⟨'\\' :: e ++ b, by simp, .escape hescape hb⟩
    | case5 => cases h
    | case6 c rest hq hb hc ih =>
      cases hs : scanString rest with
      | error f =>
        rw [hs] at h
        cases h
      | ok p =>
        rw [hs] at h
        cases h
        obtain ⟨b, rfl, hb'⟩ := ih hs
        exact ⟨c :: b, rfl, .plain ⟨hq, hb, hc⟩ hb'⟩
  · rintro ⟨b, rfl, hb⟩
    induction hb with
    | nil => rw [List.nil_append, scanString, if_pos rfl]
    | @plain c b t hc h ih =>
      rw [List.cons_append, scanString_plain hc, ih]
      rfl
    | @escape e b t d he h ih =>
      have hscan : scanEscape (e ++ (b ++ '"' :: r)) = .ok (d, b ++ '"' :: r) :=
        scanEscape_eq_ok_iff.mpr ⟨e, rfl, he⟩
      rw [List.append_assoc, List.cons_append, scanString_escape hscan, ih]
      rfl

/-- **A string that nobody looks at is passed over as a whole.** -/
theorem skipString_eq_ok_iff : skipString s = .ok r ↔ ∃ b, s = b ++ '"' :: r ∧ StringForm b := by
  constructor
  · intro h
    fun_induction skipString s with
    | case1 => cases h
    | case2 rest =>
      cases h
      exact ⟨[], rfl, .nil⟩
    | case3 => cases h
    | case4 rest rest' he hne ih =>
      obtain ⟨e, rfl, hescape⟩ := skipEscape_eq_ok_iff.mp he
      obtain ⟨b, rfl, hb⟩ := ih h
      exact ⟨'\\' :: e ++ b, by simp, .escape hescape hb⟩
    | case5 => cases h
    | case6 c rest hq hb hc ih =>
      obtain ⟨b, rfl, hb'⟩ := ih h
      exact ⟨c :: b, rfl, .plain ⟨hq, hb, hc⟩ hb'⟩
  · rintro ⟨b, rfl, hb⟩
    induction hb with
    | nil => rw [List.nil_append, skipString, if_pos rfl]
    | @plain c b hc h ih =>
      rw [List.cons_append, skipString, if_neg hc.1, if_neg hc.2.1, if_neg hc.2.2, ih]
    | @escape e b he h ih =>
      have hskip : skipEscape (e ++ (b ++ '"' :: r)) = .ok (b ++ '"' :: r) :=
        skipEscape_eq_ok_iff.mpr ⟨e, rfl, he⟩
      rw [List.append_assoc, List.cons_append, skipString, if_neg (by decide), if_pos rfl]
      split
      · rename_i f herror
        rw [hskip] at herror
        cases herror
      · rename_i rest' hok
        rw [hskip] at hok
        cases hok
        exact ih

end Strings

end Dataflow.Json
