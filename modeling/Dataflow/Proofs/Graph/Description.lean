import Dataflow.Proofs.Graph.Growth

/-!
# How an edge reads

`Graph.describe` looks up the two ends of an edge through the tables, twice each, and falls back to the
bare identity.  Here is what the reader of the text is told: an end is the port of a registered
transform, or no registered transform has it (`Graph.EndText`).  In a sound graph the text of an edge is
made of the texts of its ends, and a registered edge has no stray end (`Graph.Sound.describesByScan`).
-/

namespace Dataflow

namespace Graph
variable {g : Graph} {v : Ident} {a : String}

/-- **The text of an end of an edge**, by a scan of the registered transforms. -/
inductive EndText (g : Graph) (v : Ident) : String → Prop
  | owned {t : Transform} {p : Port} (ht : t ∈ g.transforms) (hp : p ∈ t.ports) (hv : p.id = v) :
      EndText g v (t.name ++ "." ++ p.name)
  | stray (h : ∀ t ∈ g.transforms, t.hasId v = false) :
      EndText g v ("<vertex #" ++ toString v.slot ++ ">")

/-- The label of an edge as it is shown behind the ends. -/
def labelText : Option String → String
  | none => ""
  | some label => " [" ++ label ++ "]"

/-- **A graph that describes edges as a scan would.** -/
structure DescribesByScan (g : Graph) : Prop where
  /-- Any edge, registered or not. -/
  describe : ∀ e text, g.describe e = text ↔ ∃ a b, g.EndText e.source a ∧
    g.EndText e.destination b ∧ text = a ++ " -> " ++ b ++ labelText e.label
  registered : ∀ e ∈ g.edges, ∃ t ∈ g.transforms, ∃ p ∈ t.ports, ∃ u ∈ g.transforms, ∃ q ∈ u.ports,
    p.id = e.source ∧ q.id = e.destination ∧ g.describe e =
      (t.name ++ "." ++ p.name) ++ " -> " ++ (u.name ++ "." ++ q.name) ++ labelText e.label

/-- Every identity has a text. -/
theorem exists_endText (g : Graph) (v : Ident) : ∃ a, g.EndText v a := by
  by_cases h : ∃ t ∈ g.transforms, t.hasId v = true
  · obtain ⟨t, ht, hv⟩ := h
    obtain ⟨p, hp, hid⟩ := Transform.hasId_iff.mp hv
    exact ⟨_, .owned ht hp hid⟩
  · exact ⟨_, .stray fun t ht => Bool.eq_false_iff.mpr fun hv => h ⟨t, ht, hv⟩⟩

theorem describe_eq (g : Graph) (e : Edge) : g.describe e =
    g.describePort e.source ++ " -> " ++ g.describePort e.destination ++ labelText e.label := by
  unfold describe labelText
  cases e.label with
  | none => exact (String.append_empty).symm
  | some label => simp only [String.append_assoc]

theorem describePort_of_ownerless (h : g.owner? v = none) :
    g.describePort v = "<vertex #" ++ toString v.slot ++ ">" := by
  simp only [describePort, h, Ident.text, ← String.append_assoc]
  rfl

section Sound
variable (hg : g.Sound) (hl : g.transforms.length ≤ 4294967295)
include hg hl

/-- An end of an edge has no other text than the one that is shown. -/
theorem EndText.describePort_eq (h : g.EndText v a) : g.describePort v = a := by
  cases h with
  | @owned t p ht hp hv =>
    have howner : g.owner? v = some t :=
      (owner?_eq_some_iff hg.parents hl).mpr ⟨ht, Transform.hasId_iff.mpr ⟨p, hp, hv⟩⟩
    have hport : g.port? v = some p :=
      (port?_eq_some_iff hg.parents hl fun u hu => (hg.transforms u hu).ids).mpr ⟨t, ht, hp, hv⟩
    exact describePort_of_owner howner hport
  | stray h =>
    refine describePort_of_ownerless (Option.eq_none_iff_forall_ne_some.mpr fun t howner => ?_)
    obtain ⟨ht, hv⟩ := (owner?_eq_some_iff hg.parents hl).mp howner
    exact absurd hv (Bool.eq_false_iff.mp (h t ht))

/-- **The text that is shown for an end is the text of a scan.** -/
theorem endText_describePort (v : Ident) : g.EndText v (g.describePort v) := by
  obtain ⟨a, ha⟩ := g.exists_endText v
  rw [ha.describePort_eq hg hl]
  exact ha

/-- **A sound graph describes edges as a scan would.** -/
theorem Sound.describesByScan : g.DescribesByScan where
  describe e text := by
    constructor
    · rintro rfl
      exact ⟨_, _, endText_describePort hg hl _, endText_describePort hg hl _, g.describe_eq e⟩
    · rintro ⟨a, b, ha, hb, rfl⟩
      rw [describe_eq, ha.describePort_eq hg hl, hb.describePort_eq hg hl]
  registered e he := by
    obtain ⟨⟨t, ht, p, hp, hs, -⟩, u, hu, q, hq, hd, -⟩ := hg.edges e he
    refine ⟨t, ht, p, hp, u, hu, q, hq, hs, hd, ?_⟩
    rw [describe_eq, (EndText.owned ht hp hs).describePort_eq hg hl,
      (EndText.owned hu hq hd).describePort_eq hg hl]

end Sound

end Graph

end Dataflow
