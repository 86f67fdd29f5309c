import Dataflow.Attempt

/-!
# What attempts leave behind

Three things can be said of an attempt, and each of them is said of a longer one as soon as it is said
of its parts.  It keeps something of the state whatever comes of it (`Attempt.Keeps`), it cannot fail
(`Attempt.Certain`), and from a given state it fails without a trace (`Attempt.Traceless`).

For the last one the order of the parts matters.  Work that reads first leaves no trace when the rest
leaves none.  Work that has written something must not fail any more, so what follows a traceless part
that writes has to be certain (`Attempt.Traceless.bind`).
-/

namespace Dataflow.Attempt
variable {σ ε α β γ : Type} {x : Attempt σ ε α} {f : α → Attempt σ ε β} {r : σ → Except ε α} {s : σ}

/-- **Work that begins by reading** ends at once in the same state, or the rest decides how it ends. -/
theorem read_bind_elim {P : σ × Except ε β → Prop} (herror : ∀ e, r s = .error e → P (s, .error e))
    (hok : ∀ a, r s = .ok a → P (f a s)) : P ((read r >>= f) s) := by
  cases h : r s with
  | error e => exact read_bind_of_error h ▸ herror e h
  | ok a => exact read_bind_of_ok h ▸ hok a h

/-! ## Keeping something -/

/-- Something of the state is as it was when the attempt ends, whatever comes of it. -/
def Keeps (p : σ → γ) (x : Attempt σ ε α) : Prop := ∀ s, p (x s).1 = p s

section Keeps
variable {p : σ → γ}

theorem keeps_pure (a : α) : Keeps p (pure a : Attempt σ ε α) := fun _ => rfl

theorem keeps_read (r : σ → Except ε α) : Keeps p (read r) := fun _ => rfl

theorem keeps_fail (e : ε) : Keeps p (fail e : Attempt σ ε α) := fun _ => rfl

theorem Keeps.bind (hx : x.Keeps p) (hf : ∀ a, (f a).Keeps p) : (x >>= f).Keeps p := by
  intro s
  rcases h : x s with ⟨s₁, e | a⟩
  · rw [bind_of_error h, ← hx s, h]
  · rw [bind_of_ok h, hf a s₁, ← hx s, h]

end Keeps

/-! ## Work that cannot fail -/

/-- The attempt gives a result, wherever it begins. -/
def Certain (x : Attempt σ ε α) : Prop := ∀ s, ∃ a, (x s).2 = .ok a

theorem certain_pure (a : α) : Certain (pure a : Attempt σ ε α) := fun _ => ⟨a, rfl⟩

theorem certain_change (g : σ → σ) : Certain (change g : Attempt σ ε Unit) := fun _ => ⟨(), rfl⟩

theorem Certain.bind (hx : x.Certain) (hf : ∀ a, (f a).Certain) : (x >>= f).Certain := by
  intro s
  obtain ⟨a, ha⟩ := hx s
  have hfirst : x s = ((x s).1, .ok a) := Prod.ext rfl ha
  rw [bind_of_ok hfirst]
  exact hf a (x s).1

/-- **A failure from this state leaves the state as it was.** -/
def Traceless (x : Attempt σ ε α) (s : σ) : Prop := ∀ e, (x s).2 = .error e → (x s).1 = s

theorem Certain.traceless (hx : x.Certain) (s : σ) : x.Traceless s := by
  intro e he
  obtain ⟨a, ha⟩ := hx s
  cases ha.symm.trans he

theorem traceless_read (r : σ → Except ε α) (s : σ) : Traceless (read r) s := fun _ _ => rfl

theorem traceless_fail (e : ε) (s : σ) : Traceless (fail e : Attempt σ ε α) s := fun _ _ => rfl

theorem Traceless.read_bind (h : ∀ a, r s = .ok a → (f a).Traceless s) :
    (read r >>= f).Traceless s :=
  read_bind_elim (P := fun r => ∀ e, r.2 = .error e → r.1 = s) (fun _ _ _ _ => rfl) h

/-- After a part that may write, nothing may fail. -/
theorem Traceless.bind (hx : x.Traceless s) (hf : ∀ a, (f a).Certain) : (x >>= f).Traceless s := by
  intro e he
  rcases h : x s with ⟨s₁, e' | a⟩
  · rw [bind_of_error h]
    exact (congrArg Prod.fst h).symm.trans (hx e' (congrArg Prod.snd h))
  · rw [bind_of_ok h] at he
    obtain ⟨b, hb⟩ := hf a s₁
    cases hb.symm.trans he

end Dataflow.Attempt
