import Dataflow.Proofs.Json.Numerals

/-!
# The values of a JSON text

`Written` is the grammar of values of any shape and depth, without a scanner.  `skipValue` passes over
exactly these: what it passes over is such a value (`written_of_skipValue`), and it passes over each of
them as a whole (`skipValue_append`).

The scanner keeps what is open on a stack and has no calls to come back to, so neither direction can be
proved of a value alone.  In between, what is left of a text has to close the stack (`Closes`): for each
enclosure on it there are more parts or none, and then its closing bracket.
-/

namespace Dataflow.Json

/-- The character that opens an enclosure. -/
def Enclosure.opening : Enclosure → Char
  | array => '['
  | object => '\x7b'

/-- A value without parts. -/
inductive Scalar : List Char → Prop
  | string {b : List Char} (hb : StringForm b) : Scalar ('"' :: (b ++ ['"']))
  | number {n : List Char} (hn : Unsigned n) : Scalar n
  | negative {n : List Char} (hn : Unsigned n) : Scalar ('-' :: n)
  | null : Scalar ['n', 'u', 'l', 'l']
  | isTrue : Scalar ['t', 'r', 'u', 'e']
  | isFalse : Scalar ['f', 'a', 'l', 's', 'e']

/-- What stands in front of the value of a part: nothing in an array, and in an object a name and a
colon. -/
inductive Label : Enclosure → List Char → Prop
  | array : Label .array []
  | object {a b c : List Char} (ha : Spaces a) (hb : StringForm b) (hc : Spaces c) :
      Label .object (a ++ '"' :: (b ++ '"' :: (c ++ [':'])))

/-- The two sorts of text that the grammar describes. -/
inductive Form
  /-- One value, without spaces around it. -/
  | value
  /-- What stands between the brackets when the enclosure is not empty. -/
  | parts (e : Enclosure)

/-- **The values of JSON**, nested to any depth, with spaces wherever they may stand. -/
inductive Written : Form → List Char → Prop
  | scalar {v : List Char} (hv : Scalar v) : Written .value v
  | empty {e : Enclosure} {a : List Char} (ha : Spaces a) :
      Written .value (e.opening :: (a ++ [e.closing]))
  | full {e : Enclosure} {p : List Char} (hp : Written (.parts e) p) :
      Written .value (e.opening :: (p ++ [e.closing]))
  | last {e : Enclosure} {l a v b : List Char} (hl : Label e l) (ha : Spaces a)
      (hv : Written .value v) (hb : Spaces b) : Written (.parts e) (l ++ (a ++ v ++ b))
  | next {e : Enclosure} {l a v b p : List Char} (hl : Label e l) (ha : Spaces a)
      (hv : Written .value v) (hb : Spaces b) (hp : Written (.parts e) p) :
      Written (.parts e) (l ++ (a ++ v ++ (b ++ ',' :: p)))

theorem IntegerText.written {k : Int} {v : List Char} (h : IntegerText k v) : Written .value v := by
  cases h with
  | natural => exact .scalar (.number whole_toDigits.unsigned)
  | negative hn => exact .scalar (.negative whole_toDigits.unsigned)

/-- Behind a value, the text closes the enclosures that are open, and the rest follows. -/
inductive Closes : List Enclosure → List Char → List Char → Prop
  | done {r : List Char} : Closes [] r r
  | close {e : Enclosure} {stack : List Enclosure} {a t r : List Char} (ha : Spaces a)
      (h : Closes stack t r) : Closes (e :: stack) (a ++ e.closing :: t) r
  | more {e : Enclosure} {stack : List Enclosure} {a p t r : List Char} (ha : Spaces a)
      (hp : Written (.parts e) p) (h : Closes stack t r) :
      Closes (e :: stack) (a ++ ',' :: (p ++ e.closing :: t)) r

/-! ## Values without parts -/

section Scalars
variable {s r v : List Char} {c d : Char}

theorem scanWord_eq_ok_iff {word : List Char} : scanWord word s = .ok r ↔ s = word ++ r := by
  fun_induction scanWord word s with
  | case1 s =>
    rw [List.nil_append, Except.ok.injEq]
  | case2 => simp
  | case3 w word rest ih => simpa using ih
  | case4 w word c rest hne => simpa using fun h => absurd h hne

theorem isDigit_ne (hc : c.isDigit = true) (hd : d.isDigit = false) : c ≠ d := by
  rintro rfl
  rw [hc] at hd
  cases hd

theorem isSpace_of_isDigit (hc : c.isDigit = true) : isSpace c = false := by
  simp [isSpace, isDigit_ne hc]

/-- What is passed over is a value without parts. -/
theorem scalar_of_skipScalar (h : skipScalar c s = .ok r) : ∃ v, c :: s = v ++ r ∧ Scalar v := by
  unfold skipScalar at h
  split at h
  · rename_i hc
    subst hc
    obtain ⟨b, rfl, hb⟩ := skipString_eq_ok_iff.mp h
    exact ⟨_, by simp, .string hb⟩
  · split at h
    · rename_i hc
      subst hc
      obtain ⟨n, rfl, hn⟩ := unsigned_of_skipNumber h
      exact ⟨_, rfl, .negative hn⟩
    · split at h
      · obtain ⟨n, hs, hn⟩ := unsigned_of_skipNumber h
        exact ⟨n, hs, .number hn⟩
      · split at h
        · rename_i hc
          subst hc
          exact ⟨_, by rw [scanWord_eq_ok_iff.mp h]; rfl, .null⟩
        · split at h
          · rename_i hc
            subst hc
            exact ⟨_, by rw [scanWord_eq_ok_iff.mp h]; rfl, .isTrue⟩
          · split at h
            · rename_i hc
              subst hc
              exact ⟨_, by rw [scanWord_eq_ok_iff.mp h]; rfl, .isFalse⟩
            · cases h

/-- A value without parts is passed over as a whole, and its first character tells it from arrays and
objects. -/
theorem Scalar.exists_cons (h : Scalar v) : ∃ c s, v = c :: s ∧ isSpace c = false ∧ c ≠ ']' ∧
    (∀ e : Enclosure, c ≠ e.opening) ∧ ∀ r, EndsNumber r → skipScalar c (s ++ r) = .ok r := by
  cases h with
  | @string b hb =>
    refine ⟨'"', b ++ ['"'], rfl, rfl, by decide, fun e => by cases e <;> decide, fun r hr => ?_⟩
    rw [skipScalar, if_pos rfl]
    exact skipString_eq_ok_iff.mpr ⟨b, by simp, hb⟩
  | number hn =>
    obtain ⟨c, s, rfl, hc⟩ := hn.exists_cons
    refine ⟨c, s, rfl, isSpace_of_isDigit hc, isDigit_ne hc rfl,
      fun e => isDigit_ne hc (by cases e <;> rfl), fun r hr => ?_⟩
    rw [skipScalar, if_neg (isDigit_ne hc rfl), if_neg (isDigit_ne hc rfl), if_pos hc]
    exact skipNumber_append hn hr
  | @negative n hn =>
    exact ⟨'-', n, rfl, rfl, by decide, fun e => by cases e <;> decide,
      fun r hr => skipNumber_append hn hr⟩
  | null =>
    exact ⟨'n', _, rfl, rfl, by decide, fun e => by cases e <;> decide,
      fun r hr => scanWord_eq_ok_iff.mpr rfl⟩
  | isTrue =>
    exact ⟨'t', _, rfl, rfl, by decide, fun e => by cases e <;> decide,
      fun r hr => scanWord_eq_ok_iff.mpr rfl⟩
  | isFalse =>
    exact ⟨'f', _, rfl, rfl, by decide, fun e => by cases e <;> decide,
      fun r hr => scanWord_eq_ok_iff.mpr rfl⟩

end Scalars

/-! ## The label of a part -/

section Labels
variable {s r : List Char} {e : Enclosure}

/-- What follows the label of a part. -/
def skipLabel : Enclosure → List Char → Except Fault (List Char)
  | .array, s => .ok s
  | .object, s => skipName s

theorem scanColon_eq_ok_iff : scanColon s = .ok r ↔ ∃ a, Spaces a ∧ s = a ++ ':' :: r :=
  scanChar_eq_ok_iff rfl

theorem skipName_eq_ok_iff : skipName s = .ok r ↔ ∃ l, s = l ++ r ∧ Label .object l := by
  constructor
  · intro h
    unfold skipName at h
    split at h
    · cases h
    · rename_i c rest hs
      split at h
      · rename_i hc
        subst hc
        obtain ⟨a, ha, -, rfl⟩ := skipSpaces_eq_cons_iff.mp hs
        obtain ⟨rest', hname, hcolon⟩ := bind_eq_ok.mp h
        obtain ⟨b, rfl, hb⟩ := skipString_eq_ok_iff.mp hname
        obtain ⟨c, hc, rfl⟩ := scanColon_eq_ok_iff.mp hcolon
        exact ⟨_, by simp, .object ha hb hc⟩
      · cases h
  · rintro ⟨l, rfl, hl⟩
    cases hl with
    | @object a b c ha hb hc =>
      have hname : skipString (b ++ '"' :: (c ++ ':' :: r)) = .ok (c ++ ':' :: r) :=
        skipString_eq_ok_iff.mpr ⟨b, rfl, hb⟩
      have hcolon : scanColon (c ++ ':' :: r) = .ok r := scanColon_eq_ok_iff.mpr ⟨c, hc, rfl⟩
      have hs : skipSpaces (a ++ '"' :: (b ++ '"' :: (c ++ [':'])) ++ r) =
          '"' :: (b ++ '"' :: (c ++ ':' :: r)) := by
        simp only [List.append_assoc, List.cons_append, List.nil_append]
        rw [skipSpaces_append ha, skipSpaces_cons rfl]
      simp only [skipName, hs, if_true]
      rw [hname]
      exact hcolon

theorem skipLabel_eq_ok_iff : skipLabel e s = .ok r ↔ ∃ l, s = l ++ r ∧ Label e l := by
  cases e with
  | array =>
    constructor
    · intro h
      cases h
      exact ⟨[], rfl, .array⟩
    · rintro ⟨l, rfl, ⟨⟩⟩
      rfl
  | object => exact skipName_eq_ok_iff

theorem length_skipLabel_le (h : skipLabel e s = .ok r) : r.length ≤ s.length := by
  obtain ⟨l, rfl, -⟩ := skipLabel_eq_ok_iff.mp h
  simp

end Labels

/-! ## One step of the scanner -/

section Steps
variable {s rest : List Char} {c : Char} {e : Enclosure} {stack : List Enclosure}

theorem skipValue_of_scalar (hs : skipSpaces s = c :: rest) (hc : ∀ e : Enclosure, c ≠ e.opening) :
    skipValue stack s = skipScalar c rest >>= skipEnclosures stack := by
  rw [skipValue]
  split
  · rename_i h
    rw [hs] at h
    cases h
  · rename_i c' rest' h
    rw [hs] at h
    cases h
    have harray : c ≠ '[' := hc .array
    have hobject : c ≠ '\x7b' := hc .object
    rw [if_neg harray, if_neg hobject]
    split
    · rename_i h
      rw [h]
      rfl
    · rename_i h
      rw [h]
      rfl

/-- Both sorts of enclosure are entered in the same way. -/
theorem skipValue_of_opening (hs : skipSpaces s = e.opening :: rest) :
    skipValue stack s = match skipSpaces rest with
      | [] => .error .truncated
      | d :: rest' =>
        if d = e.closing then skipEnclosures stack rest'
        else skipLabel e rest >>= skipValue (e :: stack) := by
  rw [skipValue]
  split
  · rename_i h
    rw [hs] at h
    cases h
  · rename_i c' rest' h
    rw [hs] at h
    cases h
    cases e with
    | array =>
      refine (if_pos rfl).trans ?_
      split
      · rename_i h
        rw [h]
      · rename_i h
        rw [h]
        rfl
    | object =>
      refine (if_neg (by decide)).trans ((if_pos rfl).trans ?_)
      split
      · rename_i h
        rw [h]
      · rename_i d rest' h
        rw [h]
        split
        · rename_i hd
          exact (if_pos hd).symm
        · rename_i hd
          refine Eq.trans ?_ (if_neg hd).symm
          split
          · rename_i hname
            rw [skipLabel, hname]
            rfl
          · rename_i hname
            rw [skipLabel, hname]
            rfl

/-- Both sorts of enclosure are left, or gone on with, in the same way. -/
theorem skipEnclosures_cons : skipEnclosures (e :: stack) s = match skipSpaces s with
      | [] => .error .truncated
      | c :: rest =>
        if c = e.closing then skipEnclosures stack rest
        else if c = ',' then skipLabel e rest >>= skipValue (e :: stack)
        else .error .malformed := by
  rw [skipEnclosures]
  split
  · rename_i h
    rw [h]
  · rename_i c rest h
    rw [h]
    cases e with
    | array => rfl
    | object =>
      refine if_congr Iff.rfl rfl (if_congr Iff.rfl ?_ rfl)
      dsimp only
      split
      · rename_i hname
        rw [skipLabel, hname]
        rfl
      · rename_i hname
        rw [skipLabel, hname]
        rfl

end Steps

/-! ## What is passed over is a value -/

section Soundness
variable {s t r l a v : List Char} {e : Enclosure} {stack : List Enclosure}

/-- A value at the end of which an enclosure is closed is the first of the parts that are left in it. -/
theorem Closes.exists_parts (hl : Label e l) (ha : Spaces a) (hv : Written .value v)
    (h : Closes (e :: stack) t r) : ∃ p t', l ++ (a ++ v ++ t) = p ++ e.closing :: t' ∧
      Written (.parts e) p ∧ Closes stack t' r := by
  cases h with
  | close hb h => exact ⟨_, _, by simp, .last hl ha hv hb, h⟩
  | more hb hp h => exact ⟨_, _, by simp, .next hl ha hv hb hp, h⟩

/-- The text begins with a value, and behind it closes what is open. -/
def HasValue (stack : List Enclosure) (s r : List Char) : Prop :=
  ∃ a v t, s = a ++ v ++ t ∧ Spaces a ∧ Written .value v ∧ Closes stack t r

theorem HasValue.exists_parts (hlabel : skipLabel e s = .ok t) (h : HasValue (e :: stack) t r) :
    ∃ p t', s = p ++ e.closing :: t' ∧ Written (.parts e) p ∧ Closes stack t' r := by
  obtain ⟨a, v, t, rfl, ha, hv, hcloses⟩ := h
  obtain ⟨l, rfl, hl⟩ := skipLabel_eq_ok_iff.mp hlabel
  exact hcloses.exists_parts hl ha hv

/-- Of shorter texts than this, the scanners pass over what they should. -/
def SoundBelow (n : Nat) : Prop :=
  ∀ (stack : List Enclosure) (s r : List Char), s.length < n →
    (skipValue stack s = .ok r → HasValue stack s r) ∧
      (skipEnclosures stack s = .ok r → Closes stack s r)

theorem SoundBelow.parts (ih : SoundBelow s.length) {rest : List Char}
    (hshort : rest.length < s.length) (h : skipLabel e rest >>= skipValue (e :: stack) = .ok r) :
    ∃ p t, rest = p ++ e.closing :: t ∧ Written (.parts e) p ∧ Closes stack t r := by
  obtain ⟨t, hlabel, hvalue⟩ := bind_eq_ok.mp h
  have hshort' := length_skipLabel_le hlabel
  exact HasValue.exists_parts hlabel ((ih (e :: stack) t r (by omega)).1 hvalue)

theorem SoundBelow.value (ih : SoundBelow s.length) (h : skipValue stack s = .ok r) :
    HasValue stack s r := by
  cases hs : skipSpaces s with
  | nil =>
    rw [skipValue] at h
    split at h
    · cases h
    · rename_i hcons
      rw [hs] at hcons
      cases hcons
  | cons c rest =>
    have hshort := length_of_skipSpaces hs
    obtain ⟨a, ha, -, heq⟩ := skipSpaces_eq_cons_iff.mp hs
    by_cases hc : ∃ e : Enclosure, c = e.opening
    · obtain ⟨e, rfl⟩ := hc
      rw [skipValue_of_opening hs] at h
      split at h
      · cases h
      · rename_i d rest' hrest
        have hshort' := length_of_skipSpaces hrest
        split at h
        · rename_i hd
          subst hd
          obtain ⟨b, hb, -, rfl⟩ := skipSpaces_eq_cons_iff.mp hrest
          exact ⟨a, e.opening :: (b ++ [e.closing]), rest', by simp [heq], ha, .empty hb,
            (ih stack rest' r (by omega)).2 h⟩
        · obtain ⟨p, t, rfl, hp, hcloses⟩ := ih.parts hshort h
          exact ⟨a, e.opening :: (p ++ [e.closing]), t, by simp [heq], ha, .full hp, hcloses⟩
    · rw [skipValue_of_scalar hs fun e he => hc ⟨e, he⟩] at h
      obtain ⟨t, hscalar, hclose⟩ := bind_eq_ok.mp h
      have hshort' := length_skipScalar_le hscalar
      obtain ⟨v, hv, hform⟩ := scalar_of_skipScalar hscalar
      exact ⟨a, v, t, by rw [heq, hv, List.append_assoc], ha, .scalar hform,
        (ih stack t r (by omega)).2 hclose⟩

theorem SoundBelow.closes (ih : SoundBelow s.length) (h : skipEnclosures stack s = .ok r) :
    Closes stack s r := by
  cases stack with
  | nil =>
    rw [skipEnclosures] at h
    cases h
    exact .done
  | cons e stack =>
    rw [skipEnclosures_cons] at h
    split at h
    · cases h
    · rename_i c rest hs
      have hshort := length_of_skipSpaces hs
      obtain ⟨a, ha, -, heq⟩ := skipSpaces_eq_cons_iff.mp hs
      split at h
      · rename_i hc
        subst hc
        rw [heq]
        exact .close ha ((ih stack rest r hshort).2 h)
      · split at h
        · rename_i hc
          subst hc
          obtain ⟨p, t, rfl, hp, hcloses⟩ := ih.parts hshort h
          rw [heq]
          exact .more ha hp hcloses
        · cases h

theorem soundBelow (n : Nat) : SoundBelow n := by
  induction n with
  | zero => exact fun _ _ _ hlt => absurd hlt (Nat.not_lt_zero _)
  | succ n ih =>
    intro stack s r hlt
    have hs : SoundBelow s.length := fun stack' s' r' hlt' => ih stack' s' r' (by omega)
    exact ⟨hs.value, hs.closes⟩

/-- **What is passed over is a value**, and the spaces in front of it. -/
theorem written_of_skipValue (h : skipValue [] s = .ok r) :
    ∃ a v, s = a ++ v ++ r ∧ Spaces a ∧ Written .value v := by
  obtain ⟨a, v, t, rfl, ha, hv, ⟨⟩⟩ := (soundBelow s.length).value h
  exact ⟨a, v, rfl, ha, hv⟩

end Soundness

/-! ## A value is passed over -/

section Completeness
variable {s t r l a v p : List Char} {c : Char} {e : Enclosure} {stack : List Enclosure}

theorem EndsNumber.append (ha : Spaces a) (hr : EndsNumber r) : EndsNumber (a ++ r) := by
  cases a with
  | nil => exact hr
  | cons c a =>
    intro d hd
    obtain rfl := Option.some.inj hd
    have hspace := ha c List.mem_cons_self
    refine ⟨Bool.eq_false_iff.mpr fun hdigit => ?_, ?_, ?_, ?_⟩
    · rw [isSpace_of_isDigit hdigit] at hspace
      cases hspace
    · rintro rfl
      cases hspace
    · rintro rfl
      cases hspace
    · rintro rfl
      cases hspace

theorem endsNumber_comma : EndsNumber (',' :: r) := by
  intro c hc
  obtain rfl := Option.some.inj hc
  decide

theorem endsNumber_closing : EndsNumber (e.closing :: r) := by
  intro c hc
  obtain rfl := Option.some.inj hc
  cases e <;> decide

/-- The first character of a value. -/
theorem Written.exists_cons (h : Written .value v) :
    ∃ c s, v = c :: s ∧ isSpace c = false ∧ c ≠ ']' := by
  cases h with
  | scalar hv =>
    obtain ⟨c, s, rfl, hspace, hc, -⟩ := hv.exists_cons
    exact ⟨c, s, rfl, hspace, hc⟩
  | @empty e => exact ⟨e.opening, _, rfl, by cases e <;> rfl, by cases e <;> decide⟩
  | @full e => exact ⟨e.opening, _, rfl, by cases e <;> rfl, by cases e <;> decide⟩

/-- An enclosure that has parts does not close at once. -/
theorem skipSpaces_labelled (hl : Label e l) (ha : Spaces a) (hv : Written .value v) :
    ∃ c rest, skipSpaces (l ++ (a ++ v ++ t)) = c :: rest ∧ c ≠ e.closing := by
  cases hl with
  | array =>
    obtain ⟨c, s, rfl, hspace, hc⟩ := hv.exists_cons
    refine ⟨c, s ++ t, ?_, hc⟩
    rw [List.nil_append, List.append_assoc, skipSpaces_append ha, List.cons_append,
      skipSpaces_cons hspace]
  | object hb =>
    rw [List.append_assoc, skipSpaces_append hb, List.cons_append, skipSpaces_cons rfl]
    exact ⟨'"', _, rfl, by decide⟩

theorem skipSpaces_parts (h : Written (.parts e) p) :
    ∃ c rest, skipSpaces (p ++ t) = c :: rest ∧ c ≠ e.closing := by
  cases h with
  | last hl ha hv hb =>
    rw [List.append_assoc, List.append_assoc]
    exact skipSpaces_labelled hl ha hv
  | next hl ha hv hb hp =>
    rw [List.append_assoc, List.append_assoc]
    exact skipSpaces_labelled hl ha hv

theorem skipEnclosures_close (ha : Spaces a) :
    skipEnclosures (e :: stack) (a ++ e.closing :: t) = skipEnclosures stack t := by
  rw [skipEnclosures_cons, skipSpaces_append ha, skipSpaces_cons (by cases e <;> rfl)]
  exact if_pos rfl

theorem skipEnclosures_comma (ha : Spaces a) :
    skipEnclosures (e :: stack) (a ++ ',' :: t) = skipLabel e t >>= skipValue (e :: stack) := by
  rw [skipEnclosures_cons, skipSpaces_append ha, skipSpaces_cons rfl]
  exact (if_neg (by cases e <;> decide)).trans (if_pos rfl)

theorem skipSpaces_enclosed (ha : Spaces a) : skipSpaces (a ++ e.opening :: (p ++ [e.closing]) ++ t) =
    e.opening :: (p ++ e.closing :: t) := by
  rw [List.append_assoc, skipSpaces_append ha, List.cons_append,
    skipSpaces_cons (by cases e <;> rfl), List.append_assoc, List.singleton_append]

/-- The scanner goes on behind the value, or behind the bracket that closes the parts. -/
def Passed : Form → List Char → Prop
  | .value, v => ∀ stack a t, Spaces a → EndsNumber t →
      skipValue stack (a ++ v ++ t) = skipEnclosures stack t
  | .parts e, p => ∀ stack t,
      (skipLabel e (p ++ e.closing :: t) >>= skipValue (e :: stack)) = skipEnclosures stack t

theorem Written.passed {f : Form} (h : Written f s) : Passed f s := by
  induction h with
  | scalar hv =>
    intro stack a t ha ht
    obtain ⟨c, s, rfl, hspace, -, hopening, hskip⟩ := hv.exists_cons
    have hs : skipSpaces (a ++ c :: s ++ t) = c :: (s ++ t) := by
      rw [List.append_assoc, skipSpaces_append ha, List.cons_append, skipSpaces_cons hspace]
    rw [skipValue_of_scalar hs hopening, hskip t ht]
    rfl
  | @empty e b hb =>
    intro stack a t ha ht
    rw [skipValue_of_opening (skipSpaces_enclosed ha), skipSpaces_append hb, skipSpaces_cons (by cases e <;> rfl)]
    exact if_pos rfl
  | @full e p hp ih =>
    intro stack a t ha ht
    obtain ⟨c, rest, hparts, hc⟩ := skipSpaces_parts (t := e.closing :: t) hp
    rw [skipValue_of_opening (skipSpaces_enclosed ha), hparts]
    exact (if_neg hc).trans (ih stack t)
  | @last e l a v b hl ha hv hb ih =>
    intro stack t
    have hlabel : skipLabel e (l ++ (a ++ v ++ b) ++ e.closing :: t) =
        .ok (a ++ v ++ (b ++ e.closing :: t)) := skipLabel_eq_ok_iff.mpr ⟨l, by simp, hl⟩
    rw [hlabel]
    calc skipValue (e :: stack) (a ++ v ++ (b ++ e.closing :: t))
      _ = skipEnclosures (e :: stack) (b ++ e.closing :: t) :=
        ih (e :: stack) a _ ha (endsNumber_closing.append hb)
      _ = skipEnclosures stack t := skipEnclosures_close hb
  | @next e l a v b p hl ha hv hb hp ih ihp =>
    intro stack t
    have hlabel : skipLabel e (l ++ (a ++ v ++ (b ++ ',' :: p)) ++ e.closing :: t) =
        .ok (a ++ v ++ (b ++ ',' :: (p ++ e.closing :: t))) :=
      skipLabel_eq_ok_iff.mpr ⟨l, by simp, hl⟩
    rw [hlabel]
    calc skipValue (e :: stack) (a ++ v ++ (b ++ ',' :: (p ++ e.closing :: t)))
      _ = skipEnclosures (e :: stack) (b ++ ',' :: (p ++ e.closing :: t)) :=
        ih (e :: stack) a _ ha (endsNumber_comma.append hb)
      _ = skipLabel e (p ++ e.closing :: t) >>= skipValue (e :: stack) := skipEnclosures_comma hb
      _ = skipEnclosures stack t := ihp stack t

/-- **A value is passed over as a whole**, and the spaces in front of it. -/
theorem skipValue_append (ha : Spaces a) (hv : Written .value v) (hr : EndsNumber r) :
    skipValue [] (a ++ v ++ r) = .ok r := by
  rw [hv.passed [] a r ha hr, skipEnclosures]

end Completeness

end Dataflow.Json
