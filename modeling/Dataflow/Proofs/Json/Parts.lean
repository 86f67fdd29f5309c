import Dataflow.Proofs.Json.Values

/-!
# The parts of an array or object that is read

A reader that looks at the parts takes them one after the other.  `Listed` is the text of the parts that
are left, whatever a part may be: between them stand commas, and spaces wherever they like.  Whether a
comma is due before the next part is all that the reader has to remember.
-/

namespace Dataflow.Json

/-- What stands in front of a part: spaces, and a comma unless it is the first. -/
inductive Lead : Bool → List Char → Prop
  | first {a : List Char} (ha : Spaces a) : Lead true a
  | later {a b : List Char} (ha : Spaces a) (hb : Spaces b) : Lead false (a ++ ',' :: b)

/-- **The parts that an enclosure still has**, up to its closing bracket, where `Part x v` says that `v`
is a text of `x`. -/
inductive Listed {α : Type} (Part : α → List Char → Prop) : Bool → List α → List Char → Prop
  | nil {first : Bool} {a : List Char} (ha : Spaces a) : Listed Part first [] a
  | cons {first : Bool} {l v s : List Char} {x : α} {xs : List α} (hl : Lead first l)
      (hx : Part x v) (h : Listed Part false xs s) : Listed Part first (x :: xs) (l ++ (v ++ s))

section Lead
variable {first : Bool} {l a s r : List Char} {c : Char}

theorem Spaces.append (hs : Spaces s) (ha : Spaces a) : Spaces (s ++ a) := by
  intro c hc
  obtain h | h := List.mem_append.mp hc
  · exact hs c h
  · exact ha c h

/-- Spaces before the part may as well belong to what stands in front of it. -/
theorem Lead.append (hl : Lead first l) (ha : Spaces a) : Lead first (l ++ a) := by
  cases hl with
  | first hb => exact .first (hb.append ha)
  | later hb hc =>
    rw [List.append_assoc, List.cons_append]
    exact .later hb (hc.append ha)

theorem nextElement_eq_closed_iff :
    nextElement first s = .ok (.closed r) ↔ ∃ a, Spaces a ∧ s = a ++ ']' :: r := by
  unfold nextElement
  constructor
  · intro h
    split at h
    · cases h
    · rename_i c rest hs
      split at h
      · rename_i hc
        subst hc
        cases h
        obtain ⟨a, ha, -, rfl⟩ := skipSpaces_eq_cons_iff.mp hs
        exact ⟨a, ha, rfl⟩
      · repeat' split at h
        all_goals cases h
  · rintro ⟨a, ha, rfl⟩
    rw [skipSpaces_append ha, skipSpaces_cons rfl]
    rfl

theorem lead_of_nextElement (h : nextElement first s = .ok (.part r)) :
    ∃ l, s = l ++ r ∧ Lead first l := by
  unfold nextElement at h
  split at h
  · cases h
  · rename_i c rest hs
    obtain ⟨a, ha, -, rfl⟩ := skipSpaces_eq_cons_iff.mp hs
    split at h
    · cases h
    · split at h
      · rename_i hfirst
        subst hfirst
        cases h
        exact ⟨a, rfl, .first ha⟩
      · rename_i hfirst
        rw [Bool.not_eq_true] at hfirst
        subst hfirst
        split at h
        · rename_i hc
          subst hc
          split at h
          · cases h
          · rename_i d rest' hs'
            obtain ⟨b, hb, -, rfl⟩ := skipSpaces_eq_cons_iff.mp hs'
            split at h
            · cases h
            · cases h
              exact ⟨a ++ ',' :: b, by simp, .later ha hb⟩
        · cases h

theorem nextElement_append (hl : Lead first l) (hspace : isSpace c = false) (hc : c ≠ ']') :
    nextElement first (l ++ c :: r) = .ok (.part (c :: r)) := by
  cases hl with
  | first ha =>
    rw [nextElement, skipSpaces_append ha, skipSpaces_cons hspace]
    exact (if_neg hc).trans (if_pos rfl)
  | @later a b ha hb =>
    have hpart : skipSpaces (b ++ c :: r) = c :: r := by
      rw [skipSpaces_append hb, skipSpaces_cons hspace]
    rw [nextElement, List.append_assoc, skipSpaces_append ha, List.cons_append, skipSpaces_cons rfl]
    simp only [hpart, if_neg hc]
    rfl

theorem nextMember_eq_closed_iff :
    nextMember first s = .ok (.closed r) ↔ ∃ a, Spaces a ∧ s = a ++ '\x7d' :: r := by
  unfold nextMember
  constructor
  · intro h
    split at h
    · cases h
    · rename_i c rest hs
      split at h
      · rename_i hc
        subst hc
        cases h
        obtain ⟨a, ha, -, rfl⟩ := skipSpaces_eq_cons_iff.mp hs
        exact ⟨a, ha, rfl⟩
      · repeat' split at h
        all_goals cases h
  · rintro ⟨a, ha, rfl⟩
    rw [skipSpaces_append ha, skipSpaces_cons rfl]
    rfl

theorem lead_of_nextMember (h : nextMember first s = .ok (.part r)) :
    ∃ l, s = l ++ '"' :: r ∧ Lead first l := by
  unfold nextMember at h
  split at h
  · cases h
  · rename_i c rest hs
    obtain ⟨a, ha, -, rfl⟩ := skipSpaces_eq_cons_iff.mp hs
    split at h
    · cases h
    · split at h
      · rename_i hfirst
        subst hfirst
        split at h
        · rename_i hc
          subst hc
          cases h
          exact ⟨a, rfl, .first ha⟩
        · cases h
      · rename_i hfirst
        rw [Bool.not_eq_true] at hfirst
        subst hfirst
        split at h
        · rename_i hc
          subst hc
          split at h
          · cases h
          · rename_i d rest' hs'
            obtain ⟨b, hb, -, rfl⟩ := skipSpaces_eq_cons_iff.mp hs'
            split at h
            · rename_i hd
              subst hd
              cases h
              exact ⟨a ++ ',' :: b, by simp, .later ha hb⟩
            · cases h
        · cases h

theorem nextMember_append (hl : Lead first l) :
    nextMember first (l ++ '"' :: r) = .ok (.part r) := by
  cases hl with
  | first ha =>
    rw [nextMember, skipSpaces_append ha, skipSpaces_cons rfl]
    rfl
  | @later a b ha hb =>
    have hpart : skipSpaces (b ++ '"' :: r) = '"' :: r := by
      rw [skipSpaces_append hb, skipSpaces_cons rfl]
    rw [nextMember, List.append_assoc, skipSpaces_append ha, List.cons_append, skipSpaces_cons rfl]
    simp only [hpart]
    rfl

theorem nextMember_eq_part_iff :
    nextMember first s = .ok (.part r) ↔ ∃ l, s = l ++ '"' :: r ∧ Lead first l := by
  refine ⟨lead_of_nextMember, ?_⟩
  rintro ⟨l, rfl, hl⟩
  exact nextMember_append hl

theorem scanArrayEnd_eq_ok_iff : scanArrayEnd s = .ok r ↔ ∃ a, Spaces a ∧ s = a ++ ']' :: r :=
  scanChar_eq_ok_iff rfl

end Lead

theorem Listed.imp {α : Type} {Part Part' : α → List Char → Prop} {first : Bool} {xs : List α}
    {s : List Char} (h : Listed Part first xs s) (himp : ∀ x v, Part x v → Part' x v) :
    Listed Part' first xs s := by
  induction h with
  | nil ha => exact .nil ha
  | cons hl hx _ ih => exact .cons hl (himp _ _ hx) ih

/-- Behind a part, no number goes on. -/
theorem Listed.endsNumber {α : Type} {Part : α → List Char → Prop} {xs : List α} {s r : List Char}
    (h : Listed Part false xs s) (e : Enclosure) : EndsNumber (s ++ e.closing :: r) := by
  cases h with
  | nil ha => exact endsNumber_closing.append ha
  | cons hl =>
    cases hl with
    | later ha =>
      rw [List.append_assoc, List.append_assoc]
      exact endsNumber_comma.append ha

end Dataflow.Json
