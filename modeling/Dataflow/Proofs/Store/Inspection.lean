import Mathlib.Data.List.Basic
import Dataflow.Inspect
import Dataflow.Proofs.Text.Reading

/-!
# What an inspection tells

The text of a constant for inspection has its name and its value in it, between words that the name
and the value may contain as well.  It is read back from left to right: both texts are quoted, so
the reader knows where each of them ends, and what it expects next is a fixed word
(`readInspection`).

So the text tells everything of a constant but which computation it is bound to.  The reader finds
the name and what is shown of the value, and two constants have one text exactly if these are the
same (`Store.inspect_determines`).
-/

namespace Dataflow

/-- What an inspection shows of a value. -/
inductive Shown
  | unbound
  | literal (text : String)
  /-- Which computation it is does not show. -/
  | computed
deriving DecidableEq

namespace Shown

/-- What is shown of a value, if there is one. -/
def of : Option Value → Shown
  | none => unbound
  | some (.literal text) => literal text
  | some (.computed _) => computed

/-- The words for it. -/
def text : Shown → String
  | unbound => "None"
  | literal text => "Some(" ++ ("Literal(" ++ Text.quote text ++ ")") ++ ")"
  | computed => "Some(" ++ "Profiled(<fn>)" ++ ")"

/-- **Two values look the same** if both are missing, both are one text, or both are computed. -/
theorem of_eq_of_iff {v v' : Option Value} : of v = of v' ↔
    (v = none ∧ v' = none) ∨
      (∃ text, v = some (.literal text) ∧ v' = some (.literal text)) ∨
      ∃ f f', v = some (.computed f) ∧ v' = some (.computed f') := by
  rcases v with _ | (text | f)
  · rcases v' with _ | (text' | f') <;> simp [of]
  · rcases v' with _ | (text' | f') <;> simp [of, eq_comm]
  · rcases v' with _ | (text' | f') <;> simp [of]

end Shown

theorem inspectConstant_eq (name : String) (value : Option Value) :
    inspectConstant name value =
      "Constant \x7b name: " ++ Text.quote name ++ ", value: " ++ (Shown.of value).text ++ " \x7d" := by
  rcases value with _ | (text | f)
  · rfl
  · rfl
  · rfl

/-! ## Reading an inspection -/

/-- What follows the word, if it comes next. -/
def expect (word : String) (s : List Char) : Option (List Char) := s.dropPrefix? word.toList

/-- What is shown of a value that is there, and what follows it. -/
def readValue (s : List Char) : Option (Shown × List Char) :=
  match expect "Profiled(<fn>)" s with
  | some rest => some (.computed, rest)
  | none => do
    let (text, rest) ← Text.readQuoted (← expect "Literal(" s)
    return (.literal (String.ofList text), ← expect ")" rest)

/-- What is shown of a value, if there is one, and what follows it. -/
def readShown (s : List Char) : Option (Shown × List Char) :=
  match expect "None" s with
  | some rest => some (.unbound, rest)
  | none => do
    let (shown, rest) ← readValue (← expect "Some(" s)
    return (shown, ← expect ")" rest)

/-- The name of a constant and what is shown of its value. -/
def readInspection (s : String) : Option (String × Shown) := do
  let (name, rest) ← Text.readQuoted (← expect "Constant \x7b name: " s.toList)
  let (shown, rest) ← readShown (← expect ", value: " rest)
  if rest = " \x7d".toList then return (String.ofList name, shown) else none

theorem expect_append (word : String) (rest : List Char) :
    expect word (word.toList ++ rest) = some rest :=
  List.dropPrefix?_append_of_beq rest (by simp)

theorem readValue_literal (text : String) (rest : List Char) :
    readValue ("Literal(".toList ++ ((Text.quote text).toList ++ (")".toList ++ rest))) =
      some (.literal text, rest) := by
  have hnot : expect "Profiled(<fn>)"
      ("Literal(".toList ++ ((Text.quote text).toList ++ (")".toList ++ rest))) = none := rfl
  simp only [readValue, hnot, expect_append, Option.bind_eq_bind, Option.bind_some,
    Text.readQuoted_quote, String.ofList_toList]
  rfl

/-- What is shown of a value is read back, whatever follows it. -/
theorem readShown_text (shown : Shown) (rest : List Char) :
    readShown (shown.text.toList ++ rest) = some (shown, rest) := by
  have hnot : ∀ s, expect "None" ("Some(".toList ++ s) = none := fun s => rfl
  cases shown with
  | unbound =>
    simp only [Shown.text, readShown, expect_append]
  | literal text =>
    simp only [Shown.text, String.toList_append, List.append_assoc]
    simp only [readShown, hnot, expect_append, Option.bind_eq_bind, Option.bind_some,
      readValue_literal]
    rfl
  | computed =>
    simp only [Shown.text, String.toList_append, List.append_assoc]
    simp only [readShown, hnot, expect_append, Option.bind_eq_bind, Option.bind_some, readValue]
    rfl

/-- **An inspection is read back.** -/
theorem readInspection_inspectConstant (name : String) (value : Option Value) :
    readInspection (inspectConstant name value) = some (name, .of value) := by
  rw [inspectConstant_eq]
  simp only [String.toList_append, List.append_assoc, readInspection, expect_append,
    Option.bind_eq_bind, Option.bind_some, Text.readQuoted_quote, readShown_text]
  simp

/-- **The text of a constant determines it**, up to which computation it is bound to: the reader
finds its name and what its value looks like, and the texts of two constants are the same exactly if
these are. -/
theorem Store.inspect_determines :
    (∀ (s : Store) (c : Constant),
      readInspection (s.inspect c) = some (c.name, .of (s.valueAt? c.cell))) ∧
    ∀ (s s' : Store) (c c' : Constant), s.inspect c = s'.inspect c' ↔ c.name = c'.name ∧
      ((s.valueAt? c.cell = none ∧ s'.valueAt? c'.cell = none) ∨
        (∃ text, s.valueAt? c.cell = some (.literal text) ∧
          s'.valueAt? c'.cell = some (.literal text)) ∨
        ∃ f f', s.valueAt? c.cell = some (.computed f) ∧
          s'.valueAt? c'.cell = some (.computed f')) := by
  have hread : ∀ (s : Store) (c : Constant),
      readInspection (s.inspect c) = some (c.name, .of (s.valueAt? c.cell)) := fun s c =>
    readInspection_inspectConstant c.name (s.valueAt? c.cell)
  refine ⟨hread, fun s s' c c' => ?_⟩
  rw [← Shown.of_eq_of_iff]
  constructor
  · intro h
    have hsame := hread s c
    rw [h, hread s' c'] at hsame
    exact ⟨congrArg Prod.fst (Option.some.inj hsame.symm),
      congrArg Prod.snd (Option.some.inj hsame.symm)⟩
  · rintro ⟨hname, hshown⟩
    unfold inspect
    rw [inspectConstant_eq, inspectConstant_eq, hname, hshown]

end Dataflow
