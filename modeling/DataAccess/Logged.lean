import DataAccess.Explain

/-!
# Logged computations

A computation that adds entries to a log and then succeeds or fails. A failure keeps the entries
of the steps before it.
-/

namespace DataAccess

structure Logged (ε α : Type) where
  log : Explain
  result : Except ε α

namespace Logged

variable {ε α β γ : Type}

protected def pure (a : α) : Logged ε α := ⟨[], .ok a⟩

protected def bind (x : Logged ε α) (f : α → Logged ε β) : Logged ε β :=
  match x.result with
  | .ok a => ⟨x.log ++ (f a).log, (f a).result⟩
  | .error e => ⟨x.log, .error e⟩

instance : Monad (Logged ε) where
  pure := Logged.pure
  bind := Logged.bind

def fail (e : ε) : Logged ε α := ⟨[], .error e⟩

def tell (level : Explain.Level) (message : String) : Logged ε Unit := ⟨[⟨level, message⟩], .ok ()⟩

def lift (r : Except ε α) : Logged ε α := ⟨[], r⟩

@[simp] theorem pure_def (a : α) : (pure a : Logged ε α) = ⟨[], .ok a⟩ := rfl

theorem bind_ok {x : Logged ε α} {a : α} (h : x.result = .ok a) (f : α → Logged ε β) :
    x >>= f = ⟨x.log ++ (f a).log, (f a).result⟩ := by
  simp [bind, Logged.bind, h]

theorem bind_error {x : Logged ε α} {e : ε} (h : x.result = .error e) (f : α → Logged ε β) :
    x >>= f = ⟨x.log, .error e⟩ := by
  simp [bind, Logged.bind, h]

/-- Runs a computation on each element in turn and stops at the first failure. -/
def each (f : α → Logged ε β) : List α → Logged ε (List β)
  | [] => pure []
  | a :: as => do
    let b ← f a
    let bs ← each f as
    return b :: bs

end Logged

end DataAccess
