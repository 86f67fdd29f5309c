/-!
# Attempts

An attempt is a piece of work on a state that may come to an early end.  The state afterwards stands
beside the result, and it stands beside the cause of an early end as well: what has been written until
then stays written, and nothing here takes it back.  So an attempt that leaves the state as it was when
it fails does so because its steps are in the right order.
-/

namespace Dataflow

/-- Work on a state that gives a result, or a cause why there is none. -/
def Attempt (σ ε α : Type) : Type := σ → σ × Except ε α

/-- The rest of the work begins in the state that the first part has left.  After an early end there
is no rest. -/
def andThen {σ ε α β : Type} (first : σ × Except ε α) (rest : σ → α → σ × Except ε β) :
    σ × Except ε β :=
  match first with
  | (s, .error e) => (s, .error e)
  | (s, .ok a) => rest s a

namespace Attempt
variable {σ ε α β : Type}

instance : Monad (Attempt σ ε) where
  pure a := fun s => (s, .ok a)
  bind x f := fun s => andThen (x s) fun s a => f a s

/-- Answers by what is found in the state, which is not changed. -/
def read (r : σ → Except ε α) : Attempt σ ε α := fun s => (s, r s)

/-- Changes the state. -/
def change (f : σ → σ) : Attempt σ ε Unit := fun s => (f s, .ok ())

/-- Comes to an early end. -/
def fail (e : ε) : Attempt σ ε α := fun s => (s, .error e)

section Bind
variable {x : Attempt σ ε α} {f : α → Attempt σ ε β} {r : σ → Except ε α} {s s' : σ} {a : α} {b : β}
  {e : ε}

theorem bind_of_ok {s₁ : σ} (h : x s = (s₁, .ok a)) : (x >>= f) s = f a s₁ :=
  congrArg (andThen · fun s a => f a s) h

theorem bind_of_error {s₁ : σ} (h : x s = (s₁, .error e)) : (x >>= f) s = (s₁, .error e) :=
  congrArg (andThen · fun s a => f a s) h

theorem read_bind_of_ok (h : r s = .ok a) : (read r >>= f) s = f a s :=
  bind_of_ok (Prod.ext rfl h)

theorem read_bind_of_error (h : r s = .error e) : (read r >>= f) s = (s, .error e) :=
  bind_of_error (Prod.ext rfl h)

theorem change_bind (g : σ → σ) (f : Unit → Attempt σ ε β) (s : σ) :
    (change g >>= f) s = f () (g s) := rfl

end Bind

end Attempt

end Dataflow
