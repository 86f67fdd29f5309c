import Dataflow.CommandLine.Run
import Mathlib.Data.List.Perm.Basic

/-!
# The ways to write an invocation of `resolve`

The option for the records can be written in five ways, and it may stand in front of the design or behind
it; a flag may stand anywhere.  An invocation is made of pieces (`Piece`), each of which is one argument or
two, and all orders of the same pieces mean the same (`spellings_agree`).

The parser does not take an option with a separate value at once.  It holds the value until the next
argument is known to be in order (`Arguments.settle`), so after a piece there may be something to settle.
What the pieces come to is said with nothing held back: each piece does something to the arguments
(`Piece.apply`), and the parser does the same, one piece late (`takeAll_pieces`).  What is given twice is
refused whatever the order is, so only the numbers of the pieces matter.
-/

namespace Dataflow.CommandLine

/-! ## Pieces -/

/-- The ways to write the option for the records. -/
inductive Spelling
  /-- `-p` and a separate value. -/
  | short
  /-- `-p` with the value attached. -/
  | shortAttached
  /-- `-p=` with the value attached. -/
  | shortEquals
  /-- `--profiles` and a separate value. -/
  | long
  /-- `--profiles=` with the value attached. -/
  | longEquals
deriving DecidableEq, Repr

/-- The text is something, and it looks neither like an option nor like the rest of one. -/
def PlainText (t : String) : Prop :=
  t ≠ "" ∧ t.toList.head? ≠ some '-' ∧ t.toList.head? ≠ some '='

instance : DecidablePred PlainText := fun t =>
  inferInstanceAs (Decidable (t ≠ "" ∧ t.toList.head? ≠ some '-' ∧ t.toList.head? ≠ some '='))

/-- A part of an invocation that stays together. -/
inductive Piece
  | design (d : String)
  | records (spelling : Spelling) (t : String)
  | verbose (long : Bool)
deriving DecidableEq, Repr

namespace Spelling

/-- The arguments for the option with this value. -/
def words (t : String) : Spelling → List String
  | short => ["-p", t]
  | shortAttached => ["-p" ++ t]
  | shortEquals => ["-p=" ++ t]
  | long => ["--profiles", t]
  | longEquals => ["--profiles=" ++ t]

/-- The value is an argument of its own. -/
def isSeparate : Spelling → Bool
  | short => true
  | long => true
  | _ => false

end Spelling

namespace Piece

/-- The arguments that the piece consists of. -/
def words : Piece → List String
  | design d => [d]
  | records spelling t => spelling.words t
  | verbose long => [if long then "--verbose" else "-v"]

/-- The piece cannot be taken for another one. -/
def Plain : Piece → Prop
  | design d => d.toList.head? ≠ some '-'
  | records _ t => PlainText t
  | verbose _ => True

/-- The design that the piece names. -/
def design? : Piece → Option (List Char)
  | design d => some d.toList
  | _ => none

/-- The value that the piece has for the records. -/
def records? : Piece → Option (List Char)
  | records _ t => some t.toList
  | _ => none

/-- The piece is the flag. -/
def isVerbose : Piece → Bool
  | verbose _ => true
  | _ => false

/-- What the piece does to the arguments when nothing is held back. -/
def apply (a : Arguments) : Piece → Except Refusal Arguments
  | design d => .ok { a with design := some d.toList }
  | records _ t => a.giveProfiles t.toList
  | verbose _ => if a.verbose then .error .repeatedOption else .ok { a with verbose := true }

/-- What the parser does with the piece: a separate value is held back. -/
def take (a : Arguments) : Piece → Except Refusal Arguments
  | records spelling t =>
    if spelling.isSeparate then .ok { a with pending := some (.held t.toList) }
    else a.giveProfiles t.toList
  | p => p.apply a

end Piece

/-- **An invocation of `resolve` with these pieces**, in any order.  Only flags stand in front of the
command. -/
inductive Invocation (ps : List Piece) : List String → Prop
  | mk {before after : List Piece} (hbefore : ∀ p ∈ before, p.isVerbose = true)
      (h : (before ++ after).Perm ps) :
      Invocation ps (before.flatMap Piece.words ++ "resolve" :: after.flatMap Piece.words)

/-- The flag, if it is there. -/
def flagPieces (flag : Option Bool) : List Piece := (flag.map Piece.verbose).toList

/-- What may stand behind the command. -/
def resolveGrammar : Grammar := ⟨true, true⟩

/-! ## What is held back -/

section Settle
variable {a b : Arguments}

theorem settle_of_pending (h : a.pending = none) : a.settle = .ok a := by
  rw [Arguments.settle, h]

/-- Where something has been settled, nothing is held back. -/
theorem settle_eq_ok (h : a.settle = .ok b) :
    b.pending = none ∧ b.escaped = a.escaped ∧ b.design = a.design := by
  unfold Arguments.settle at h
  split at h
  · rename_i hpending
    cases h
    exact ⟨hpending, rfl, rfl⟩
  · cases h
  · unfold Arguments.giveProfiles at h
    split at h
    · cases h
    · cases h
      exact ⟨rfl, rfl, rfl⟩

end Settle

/-! ## One piece -/

section Piece
variable {a b : Arguments} {g : Grammar} {p : Piece} {rest : List String} {d t w : String}
  {s : List Char} {spelling : Spelling}

/-- An argument that does not begin with a dash. -/
theorem ofString_plain (h : w.toList.head? ≠ some '-') : Argument.ofString w = .plain w.toList := by
  unfold Argument.ofString Argument.ofChars
  split
  · rename_i heq
    exact absurd (congrArg List.head? heq) h
  · rename_i heq
    exact absurd (congrArg List.head? heq) h
  · rename_i heq
    exact absurd (congrArg List.head? heq) h
  · rename_i heq
    exact absurd (congrArg List.head? heq) h
  · rfl

/-- What is attached to a letter is the value, if it begins with no equals sign. -/
theorem attached_eq (hs : s ≠ []) (hequals : s.head? ≠ some '=') :
    Arguments.attached s = some s := by
  unfold Arguments.attached
  split
  · exact absurd rfl hs
  · exact absurd rfl hequals
  · rfl

theorem take_design (ha : a.escaped = false) (hpending : a.pending ≠ some .awaited)
    (hdesign : a.design = none) (hd : d.toList.head? ≠ some '-') : a.take resolveGrammar d =
      a.settle >>= fun b => .ok { b with design := some d.toList } := by
  have hescaped : ¬ a.escaped = true := by simp [ha]
  have hfree : ¬ (a.design.isSome = true ∨ ¬ resolveGrammar.takesDesign = true) := by
    simp [hdesign, resolveGrammar]
  rw [Arguments.take, if_neg hescaped, ofString_plain hd]
  dsimp only
  rw [Arguments.takePlain, if_neg fun h => hpending h.1, if_neg hfree]
  rfl

theorem take_verbose (ha : a.escaped = false) (long : Bool) :
    a.take g (if long then "--verbose" else "-v") = a.raiseVerbose := by
  have hescaped : ¬ a.escaped = true := by simp [ha]
  rw [Arguments.take, if_neg hescaped]
  cases long with
  | true => rfl
  | false =>
    show (do Arguments.takeCluster g [] (← a.raiseVerbose)) = a.raiseVerbose
    cases a.raiseVerbose <;> rfl

theorem take_option (ha : a.escaped = false) (hw : w = "-p" ∨ w = "--profiles") :
    a.take resolveGrammar w = a.settle >>= fun b => .ok { b with pending := some .awaited } := by
  have hescaped : ¬ a.escaped = true := by simp [ha]
  rw [Arguments.take, if_neg hescaped]
  rcases hw with rfl | rfl
  · rfl
  · rfl

theorem take_value (hb : b.escaped = false) (ht : t.toList.head? ≠ some '-') :
    Arguments.take g { b with pending := some .awaited } t =
      .ok { b with pending := some (.held t.toList) } := by
  have hescaped : ¬ b.escaped = true := by simp [hb]
  rw [Arguments.take, if_neg hescaped, ofString_plain ht]
  dsimp only
  rw [Arguments.takePlain, if_pos ⟨rfl, hescaped⟩]

theorem take_attached (ha : a.escaped = false) (hp : (Piece.records spelling t).Plain)
    (hspelling : spelling.isSeparate = false) : ∃ w, spelling.words t = [w] ∧
      a.take resolveGrammar w = a.settle >>= fun b => b.giveProfiles t.toList := by
  have hescaped : ¬ a.escaped = true := by simp [ha]
  obtain ⟨hne, -, hequals⟩ := hp
  have hne : t.toList ≠ [] := by simpa using hne
  cases spelling with
  | short | long => cases hspelling
  | shortAttached =>
    refine ⟨"-p" ++ t, rfl, ?_⟩
    rw [Arguments.take, if_neg hescaped, Argument.ofString, String.toList_append]
    show a.takeOption .profiles (Arguments.attached t.toList) = _
    rw [attached_eq hne hequals]
    rfl
  | shortEquals =>
    refine ⟨"-p=" ++ t, rfl, ?_⟩
    rw [Arguments.take, if_neg hescaped, Argument.ofString, String.toList_append]
    rfl
  | longEquals =>
    refine ⟨"--profiles=" ++ t, rfl, ?_⟩
    rw [Arguments.take, if_neg hescaped, Argument.ofString, String.toList_append]
    rfl

theorem takeAll_cons : Arguments.takeAll g (w :: rest) a = a.take g w >>= Arguments.takeAll g rest :=
  rfl

/-- **The parser takes a piece as a whole**, once it has settled what it held back. -/
theorem takeAll_words (hp : p.Plain) (ha : a.escaped = false) (hpending : a.pending ≠ some .awaited)
    (hdesign : p.design?.isSome = true → a.design = none) :
    Arguments.takeAll resolveGrammar (p.words ++ rest) a =
      a.settle >>= fun b => p.take b >>= Arguments.takeAll resolveGrammar rest := by
  cases p with
  | design d =>
    rw [Piece.words, List.singleton_append, takeAll_cons, take_design ha hpending (hdesign rfl) hp]
    cases a.settle <;> rfl
  | verbose long =>
    rw [Piece.words, List.singleton_append, takeAll_cons, take_verbose ha, Arguments.raiseVerbose]
    cases a.settle <;> rfl
  | records spelling t =>
    cases hspelling : spelling.isSeparate with
    | true =>
      obtain ⟨w, hw, hwords⟩ : ∃ w, (w = "-p" ∨ w = "--profiles") ∧ spelling.words t = [w, t] := by
        cases spelling with
        | short => exact ⟨"-p", .inl rfl, rfl⟩
        | long => exact ⟨"--profiles", .inr rfl, rfl⟩
        | shortAttached | shortEquals | longEquals => cases hspelling
      rw [Piece.words, hwords, List.cons_append, List.singleton_append, takeAll_cons, take_option ha hw]
      cases hsettle : a.settle with
      | error e => rfl
      | ok b =>
        have hb : b.escaped = false := (settle_eq_ok hsettle).2.1.trans ha
        simp only [bind, Except.bind, takeAll_cons, take_value hb hp.2.1, Piece.take, hspelling, if_true]
    | false =>
      obtain ⟨w, hwords, htake⟩ := take_attached ha hp hspelling
      rw [Piece.words, hwords, List.singleton_append, takeAll_cons, htake]
      cases a.settle with
      | error e => rfl
      | ok b => simp only [bind, Except.bind, Piece.take, hspelling, Bool.false_eq_true, if_false]

/-- What the parser has taken comes to what the piece does, when it is settled. -/
theorem take_cases (hpending : b.pending = none) (hb : b.escaped = false) :
    (∃ e, p.take b = .error e ∧ p.apply b = .error e) ∨
      ∃ c, p.take b = .ok c ∧ c.settle = p.apply b ∧ c.escaped = false ∧
        c.pending ≠ some .awaited ∧ c.design = p.design?.or b.design := by
  cases p with
  | design d =>
    exact .inr ⟨_, rfl, settle_of_pending hpending, hb, by simp [hpending], rfl⟩
  | verbose long =>
    simp only [Piece.take, Piece.apply]
    split
    · exact .inl ⟨_, rfl, rfl⟩
    · exact .inr ⟨_, rfl, settle_of_pending hpending, hb, by simp [hpending], rfl⟩
  | records spelling t =>
    simp only [Piece.take, Piece.apply]
    split
    · refine .inr ⟨_, rfl, ?_, hb, by simp, rfl⟩
      rw [Arguments.settle, ← hpending]
    · cases hgive : b.giveProfiles t.toList with
      | error e => exact .inl ⟨e, rfl, rfl⟩
      | ok c =>
        unfold Arguments.giveProfiles at hgive
        split at hgive
        · cases hgive
        · cases hgive
          exact .inr ⟨_, rfl, settle_of_pending hpending, hb, by simp [hpending], rfl⟩

end Piece

/-! ## All pieces -/

section Pieces
variable {a b : Arguments} {ps : List Piece}

/-- Where there is room for one and it is there, nothing was there before. -/
theorem eq_none_of_length_le_one {α : Type} {o : Option α} {x : α} {xs : List α}
    (h : (o.toList ++ x :: xs).length ≤ 1) : o = none := by
  cases o with
  | none => rfl
  | some y => simp at h

/-- **The parser does what the pieces do**, one after the other, if there is one design at most. -/
theorem takeAll_pieces (hps : ∀ p ∈ ps, p.Plain) (ha : a.escaped = false)
    (hpending : a.pending ≠ some .awaited)
    (hdesign : (a.design.toList ++ ps.filterMap Piece.design?).length ≤ 1) :
    Arguments.takeAll resolveGrammar (ps.flatMap Piece.words) a =
      a.settle >>= fun b => ps.foldlM Piece.apply b := by
  induction ps generalizing a with
  | nil =>
    show a.settle = a.settle >>= pure
    cases a.settle <;> rfl
  | cons p ps ih =>
    obtain ⟨hp, hps⟩ := List.forall_mem_cons.mp hps
    have hnone : p.design?.isSome = true → a.design = none := by
      intro hsome
      obtain ⟨d, hd⟩ := Option.isSome_iff_exists.mp hsome
      rw [List.filterMap_cons_some hd] at hdesign
      exact eq_none_of_length_le_one hdesign
    rw [List.flatMap_cons, takeAll_words hp ha hpending hnone]
    cases hsettle : a.settle with
    | error e => rfl
    | ok b =>
      obtain ⟨hb, hescaped, hsame⟩ := settle_eq_ok hsettle
      show p.take b >>= _ = p.apply b >>= fun c => ps.foldlM Piece.apply c
      rcases take_cases (p := p) hb (hescaped.trans ha) with
        ⟨e, htake, happly⟩ | ⟨c, htake, hsettled, hc, hawaited, hdesign'⟩
      · rw [htake, happly]
        rfl
      · rw [htake, ← hsettled]
        refine ih hps hc hawaited ?_
        rw [hdesign', hsame]
        cases hd : p.design? with
        | none =>
          rw [List.filterMap_cons_none hd] at hdesign
          exact hdesign
        | some d =>
          rw [List.filterMap_cons_some hd, hnone (by rw [hd]; rfl)] at hdesign
          exact hdesign

/-- **What is given once at most is there in the end.** -/
theorem foldlM_apply_of_once (hverbose : a.verbose.toNat + ps.countP Piece.isVerbose ≤ 1)
    (hdesign : (a.design.toList ++ ps.filterMap Piece.design?).length ≤ 1)
    (hrecords : (a.profiles.toList ++ ps.filterMap Piece.records?).length ≤ 1) :
    ∃ c, ps.foldlM Piece.apply a = .ok c ∧
      c.design = (a.design.toList ++ ps.filterMap Piece.design?).head? ∧
      c.profiles = (a.profiles.toList ++ ps.filterMap Piece.records?).head? := by
  induction ps generalizing a with
  | nil => exact ⟨a, rfl, by simp, by simp⟩
  | cons p ps ih =>
    cases p with
    | design d =>
      have hnone : a.design = none := eq_none_of_length_le_one hdesign
      rw [hnone] at hdesign ⊢
      exact ih (a := { a with design := some d.toList }) hverbose hdesign hrecords
    | records spelling t =>
      have hnone : a.profiles = none := eq_none_of_length_le_one hrecords
      have happly : Piece.apply a (.records spelling t) = .ok { a with profiles := some t.toList } := by
        simp [Piece.apply, Arguments.giveProfiles, hnone]
      rw [List.foldlM_cons, happly]
      rw [hnone] at hrecords ⊢
      exact ih (a := { a with profiles := some t.toList }) hverbose hdesign hrecords
    | verbose long =>
      rw [List.countP_cons_of_pos rfl] at hverbose
      have hunset : a.verbose = false := by
        cases hold : a.verbose with
        | false => rfl
        | true =>
          rw [hold, Bool.toNat_true] at hverbose
          omega
      have happly : Piece.apply a (.verbose long) = .ok { a with verbose := true } := by
        simp [Piece.apply, hunset]
      rw [List.foldlM_cons, happly]
      refine ih (a := { a with verbose := true }) ?_ hdesign hrecords
      rw [Bool.toNat_true]
      omega

/-- **What is given twice is refused**, in whatever order. -/
theorem foldlM_apply_of_twice
    (hrecords : 1 < (a.profiles.toList ++ ps.filterMap Piece.records?).length) :
    ps.foldlM Piece.apply a = .error .repeatedOption := by
  induction ps generalizing a with
  | nil =>
    cases hold : a.profiles with
    | none => simp [hold] at hrecords
    | some t => simp [hold] at hrecords
  | cons p ps ih =>
    rw [List.foldlM_cons]
    cases p with
    | design d => exact ih (a := { a with design := some d.toList }) hrecords
    | records spelling t =>
      cases hold : a.profiles with
      | none =>
        have happly : Piece.apply a (.records spelling t) =
            .ok { a with profiles := some t.toList } := by
          simp [Piece.apply, Arguments.giveProfiles, hold]
        rw [hold] at hrecords
        rw [happly]
        exact ih (a := { a with profiles := some t.toList }) hrecords
      | some t' =>
        have happly : Piece.apply a (.records spelling t) = .error .repeatedOption := by
          simp [Piece.apply, Arguments.giveProfiles, hold]
        rw [happly]
        rfl
    | verbose long =>
      by_cases hset : a.verbose = true
      · have happly : Piece.apply a (.verbose long) = .error .repeatedOption := if_pos hset
        rw [happly]
        rfl
      · have happly : Piece.apply a (.verbose long) = .ok { a with verbose := true } := if_neg hset
        rw [happly]
        exact ih (a := { a with verbose := true }) hrecords

end Pieces

/-! ## Invocations -/

section Invocations
variable {ps before after : List Piece} {v : List String} {d : List Char} {r : Option (List Char)}

/-- **What stands behind the command decides**, and a flag may stand in front of it. -/
theorem ofArguments_resolve (hbefore : ∀ p ∈ before, p.isVerbose = true) (hlength : before.length ≤ 1)
    (rest : List String) :
    Command.ofArguments (before.flatMap Piece.words ++ "resolve" :: rest) = do
      let a ← Arguments.takeAll resolveGrammar rest {}
      return .resolve (← a.requireDesign) (String.ofList (a.profiles.getD "[]".toList)) := by
  match before, hlength with
  | [], _ => rfl
  | [.verbose true], _ => rfl
  | [.verbose false], _ => rfl
  | [.design d], _ => cases hbefore _ List.mem_cons_self
  | [.records spelling t], _ => cases hbefore _ List.mem_cons_self

/-- Flags name no design and hold no records. -/
theorem filterMap_eq_nil_of_isVerbose (hbefore : ∀ p ∈ before, p.isVerbose = true) :
    before.filterMap Piece.design? = [] ∧ before.filterMap Piece.records? = [] := by
  constructor
  · rw [List.filterMap_eq_nil_iff]
    intro p hp
    cases p with
    | design => cases hbefore _ hp
    | records | verbose => rfl
  · rw [List.filterMap_eq_nil_iff]
    intro p hp
    cases p with
    | records => cases hbefore _ hp
    | design | verbose => rfl

/-- **What an invocation asks for** depends on its pieces only: on the design and the records, if none is
given twice. -/
theorem Invocation.ofArguments (hv : Invocation ps v) (hps : ∀ p ∈ ps, p.Plain)
    (hverbose : ps.countP Piece.isVerbose ≤ 1) (hdesign : ps.filterMap Piece.design? = [d]) :
    (ps.filterMap Piece.records? = r.toList → Command.ofArguments v =
      .ok (.resolve (String.ofList d) (String.ofList (r.getD "[]".toList)))) ∧
    (1 < (ps.filterMap Piece.records?).length → Command.ofArguments v = .error .repeatedOption) := by
  obtain ⟨hbefore, h⟩ := hv
  rename_i before after
  obtain ⟨hnodesign, hnorecords⟩ := filterMap_eq_nil_of_isVerbose hbefore
  have hafter : ∀ p ∈ after, p.Plain := fun p hp => hps p (h.mem_iff.mp (List.mem_append_right _ hp))
  have hflags : before.length + after.countP Piece.isVerbose ≤ 1 := by
    rwa [← h.countP_eq, List.countP_append, List.countP_eq_length.mpr hbefore] at hverbose
  have hdesigns : after.filterMap Piece.design? = [d] := by
    have hperm := h.filterMap Piece.design?
    rw [List.filterMap_append, hnodesign, List.nil_append, hdesign] at hperm
    exact List.perm_singleton.mp hperm
  have hperm := h.filterMap Piece.records?
  rw [List.filterMap_append, hnorecords, List.nil_append] at hperm
  have htake : Arguments.takeAll resolveGrammar (after.flatMap Piece.words) {} =
      after.foldlM Piece.apply {} :=
    takeAll_pieces hafter rfl nofun (by simp [hdesigns])
  rw [ofArguments_resolve hbefore (by omega), htake]
  constructor
  · intro hrecords
    have hheld : after.filterMap Piece.records? = r.toList := by
      rw [hrecords] at hperm
      cases r with
      | none => exact List.perm_nil.mp hperm
      | some t => exact List.perm_singleton.mp hperm
    have hempty : (({} : Arguments).profiles.toList ++ after.filterMap Piece.records?) = r.toList := hheld
    have honce : r.toList.length ≤ 1 := by cases r <;> simp
    obtain ⟨c, hfold, hc, hr⟩ := @foldlM_apply_of_once {} after
      (by simp only [Bool.toNat_false]; omega) (by simp [hdesigns]) (hempty ▸ honce)
    rw [hfold]
    rw [hdesigns] at hc
    rw [hempty, Option.head?_toList] at hr
    simp only [bind, Except.bind, Arguments.requireDesign, hc, hr]
    rfl
  · intro hrecords
    rw [foldlM_apply_of_twice (by rw [← hperm.length_eq] at hrecords; exact hrecords)]
    rfl

end Invocations

section Runs
variable {d t : String} {v : List String} {flag : Option Bool}

/-- Behind a design and perhaps an option, a flag adds nothing to be taken. -/
theorem flagPieces_spec (flag : Option Bool) : (∀ p ∈ flagPieces flag, p.Plain) ∧
    (flagPieces flag).countP Piece.isVerbose ≤ 1 ∧ (flagPieces flag).filterMap Piece.design? = [] ∧
    (flagPieces flag).filterMap Piece.records? = [] := by
  cases flag with
  | none => exact ⟨nofun, Nat.zero_le 1, rfl, rfl⟩
  | some long => exact ⟨List.forall_mem_singleton.mpr trivial, Nat.le_refl 1, rfl, rfl⟩

/-- Arguments that spell a command are answered as the command is. -/
theorem run_of_ok {c : Command} (h : Command.ofArguments v = .ok c) : run v = c.run := by
  have hprogram : program v ⟨[], .start 0⟩ = c.work ⟨[], .start 0⟩ :=
    Attempt.read_bind_of_ok (congrArg (Except.mapError Failure.usage) h)
  simp only [run, Command.run, Work.finish, hprogram]

/-- Arguments that spell none are refused before anything is printed. -/
theorem run_of_error {r : Refusal} (h : Command.ofArguments v = .error r) : run v = .usage r := by
  have hprogram : program v ⟨[], .start 0⟩ = (⟨[], .start 0⟩, .error (.usage r)) :=
    Attempt.read_bind_of_error (congrArg (Except.mapError Failure.usage) h)
  simp only [run, Work.finish, hprogram, Answer.usage]

/-- **A design, options and perhaps a flag.**  The records of the one option are resolved, or an empty list
of records if there is none; more than one is refused. -/
theorem run_of_options (hd : d.toList.head? ≠ some '-') (options : List Piece)
    (hoptions : ∀ p ∈ options, ∃ spelling t, p = .records spelling t ∧ PlainText t)
    (hv : Invocation (.design d :: (options ++ flagPieces flag)) v) :
    (∀ r : Option (List Char), options.filterMap Piece.records? = r.toList →
      run v = (Command.resolve d (String.ofList (r.getD "[]".toList))).run) ∧
    (1 < (options.filterMap Piece.records?).length → run v = .usage .repeatedOption) := by
  obtain ⟨hflag, hcount, hdesigns, hrecords⟩ := flagPieces_spec flag
  have hps : ∀ p ∈ Piece.design d :: (options ++ flagPieces flag), p.Plain := by
    refine List.forall_mem_cons.mpr ⟨hd, List.forall_mem_append.mpr ⟨fun p hp => ?_, hflag⟩⟩
    obtain ⟨spelling, t, rfl, ht⟩ := hoptions p hp
    exact ht
  have hverbose : (Piece.design d :: (options ++ flagPieces flag)).countP Piece.isVerbose ≤ 1 := by
    have hnone : options.countP Piece.isVerbose = 0 := by
      refine List.countP_eq_zero.mpr fun p hp => ?_
      obtain ⟨spelling, t, rfl, -⟩ := hoptions p hp
      exact Bool.false_ne_true
    rwa [List.countP_cons_of_neg Bool.false_ne_true, List.countP_append, hnone, Nat.zero_add]
  have hdesign : (Piece.design d :: (options ++ flagPieces flag)).filterMap Piece.design? =
      [d.toList] := by
    have hnone : options.filterMap Piece.design? = [] := by
      refine List.filterMap_eq_nil_iff.mpr fun p hp => ?_
      obtain ⟨spelling, t, rfl, -⟩ := hoptions p hp
      rfl
    have hread : Piece.design? (.design d) = some d.toList := rfl
    rw [List.filterMap_cons_some hread, List.filterMap_append, hnone, hdesigns, List.append_nil]
  have hall : (Piece.design d :: (options ++ flagPieces flag)).filterMap Piece.records? =
      options.filterMap Piece.records? := by
    have hread : Piece.records? (.design d) = none := rfl
    rw [List.filterMap_cons_none hread, List.filterMap_append, hrecords, List.append_nil]
  constructor
  · intro r hr
    rw [run_of_ok ((hv.ofArguments hps hverbose hdesign).1 (hall.trans hr)), String.ofList_toList]
  · intro htwice
    rw [← hall] at htwice
    exact run_of_error ((hv.ofArguments (r := none) hps hverbose hdesign).2 htwice)

/-- **All spellings of an invocation mean the same.**  However the option is written, and in whatever order
the pieces stand, with a flag among them or without one, the records of this design are resolved; without
the option, an empty list of records is; and an option that is given twice is refused. -/
theorem spellings_agree (hd : d.toList.head? ≠ some '-') (ht : PlainText t) (flag : Option Bool) :
    run ["resolve", d, "--profiles", t] = (Command.resolve d t).run ∧
    (∀ spelling v, Invocation (.design d :: .records spelling t :: flagPieces flag) v →
      run v = run ["resolve", d, "--profiles", t]) ∧
    (∀ v, Invocation (.design d :: flagPieces flag) v →
      run v = run ["resolve", d, "--profiles", "[]"]) ∧
    ∀ t', PlainText t' → ∀ spelling spelling' v,
      Invocation (.design d :: .records spelling t :: .records spelling' t' :: flagPieces flag) v →
        run v = .usage .repeatedOption ∧ Refusal.repeatedOption.kind = "ArgumentConflict" ∧
          (run v).code = 2 := by
  have hgiven {t : String} (ht : PlainText t) {flag : Option Bool} {spelling : Spelling}
      {v : List String} (hv : Invocation (.design d :: .records spelling t :: flagPieces flag) v) :
      run v = (Command.resolve d t).run := by
    have hrun := (run_of_options hd [.records spelling t]
      (List.forall_mem_singleton.mpr ⟨_, _, rfl, ht⟩) hv).1 (some t.toList) rfl
    rwa [Option.getD_some, String.ofList_toList] at hrun
  have hreference {t : String} (ht : PlainText t) :
      run ["resolve", d, "--profiles", t] = (Command.resolve d t).run :=
    @hgiven t ht none .long _ (@Invocation.mk _ [] [.design d, .records .long t] nofun (.refl _))
  refine ⟨hreference ht, fun spelling v hv => ?_, fun v hv => ?_,
    fun t' ht' spelling spelling' v hv => ?_⟩
  · rw [hreference ht, hgiven ht hv]
  · have hempty : PlainText "[]" := by decide
    rw [hreference hempty]
    exact (run_of_options hd [] nofun hv).1 none rfl
  · have hrun : run v = .usage .repeatedOption := by
      refine (run_of_options hd [.records spelling t, .records spelling' t'] ?_ hv).2 ?_
      · exact List.forall_mem_cons.mpr
          ⟨⟨_, _, rfl, ht⟩, List.forall_mem_singleton.mpr ⟨_, _, rfl, ht'⟩⟩
      · exact Nat.lt_succ_self 1
    rw [hrun]
    exact ⟨rfl, rfl, rfl⟩

/-- A value that looks like more of the option, and an option in front of the design and behind it. -/
theorem spellings_agree_for_adder :
    run ["--verbose", "resolve", "-p[]=-v", "adder"] = run ["resolve", "adder", "--profiles", "[]=-v"] ∧
    run ["resolve", "adder", "-v"] = run ["resolve", "adder", "--profiles", "[]"] ∧
    run ["resolve", "-p", "[]=-v", "-v", "adder", "--profiles=x"] = .usage .repeatedOption := by
  have hd : "adder".toList.head? ≠ some '-' := by decide
  have ht : PlainText "[]=-v" := by decide
  have hx : PlainText "x" := by decide
  obtain ⟨-, hgiven, -, -⟩ := spellings_agree hd ht (some true)
  obtain ⟨-, -, hnone, htwice⟩ := spellings_agree hd ht (some false)
  refine ⟨hgiven .shortAttached _ ?_, hnone _ ?_, (htwice "x" hx .short .longEquals _ ?_).1⟩
  · exact @Invocation.mk _ [.verbose true] [.records .shortAttached "[]=-v", .design "adder"]
      (List.forall_mem_singleton.mpr rfl) (by decide)
  · exact @Invocation.mk _ [] [.design "adder", .verbose false] nofun (by decide)
  · exact @Invocation.mk _ []
      [.records .short "[]=-v", .verbose false, .design "adder", .records .longEquals "x"] nofun (by decide)

end Runs

end Dataflow.CommandLine
