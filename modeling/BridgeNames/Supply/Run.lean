import BridgeNames.Naming.Event

/-!
# Runs

A run changes a store and logs events while it works out its value. It cannot fail: a computation
that fails has its error for a value, so what the store gained and what was logged before the
failure are kept.
-/

namespace BridgeNames

/-- Where a run ends. -/
structure Outcome (σ α : Type) where
  value : α
  /-- The store afterwards. -/
  store : σ
  /-- What was logged on the way, in order. -/
  events : List Event

/-- A computation over a store that logs events. -/
def Run (σ α : Type) : Type := σ → Outcome σ α

namespace Run

variable {σ α β γ : Type}

/-- Goes on with the value and the store of a run, and joins the logs. -/
def bind (x : Run σ α) (f : α → Run σ β) : Run σ β := fun s =>
  let first := x s
  let second := f first.value first.store
  ⟨second.value, second.store, first.events ++ second.events⟩

instance : Monad (Run σ) where
  pure a := fun s => ⟨a, s, []⟩
  bind := bind

/-- Logs an event. -/
def log (event : Event) : Run σ Unit := fun s => ⟨(), s, [event]⟩

@[simp] theorem pure_apply (a : α) (s : σ) : (pure a : Run σ α) s = ⟨a, s, []⟩ := rfl

@[simp] theorem bind_apply (x : Run σ α) (f : α → Run σ β) (s : σ) :
    (x >>= f) s =
      ⟨(f (x s).value (x s).store).value, (f (x s).value (x s).store).store,
        (x s).events ++ (f (x s).value (x s).store).events⟩ := rfl

@[simp] theorem map_apply (f : α → β) (x : Run σ α) (s : σ) :
    (f <$> x) s = ⟨f (x s).value, (x s).store, (x s).events⟩ := by
  change Outcome.mk (f (x s).value) (x s).store ((x s).events ++ []) = _
  rw [List.append_nil]

@[simp] theorem log_apply (event : Event) (s : σ) : log event s = ⟨(), s, [event]⟩ := rfl

instance : LawfulMonad (Run σ) := LawfulMonad.mk' (Run σ)
  (fun x => by funext s; simp)
  (fun a f => by funext s; simp)
  (fun x f g => by funext s; simp [List.append_assoc])

end Run

end BridgeNames
