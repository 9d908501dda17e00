import BridgeNames.Naming.Event

/-!
# Naming computations

A use of a type or a method is named without knowing where the names of declared types come
from. Its naming is a tree of what it does: it **asks** for the name of a declared type and goes
on with the answer, **notes** an event, **fails**, or is **done**.

The tree is a value, so what it asks for can be read off it (`BridgeNames.Naming.asked`), and it can
be worked out against any supplier of names: a plain function here (`BridgeNames.Naming.eval`), one
that keeps a store and logs events in `BridgeNames.Supply.Basic`.
-/

namespace BridgeNames

/-- A computation that may ask for names of declared types, note events, and fail. -/
inductive Naming (α : Type) where
  | done (value : α)
  | fail (error : NamingError)
  | ask (type : DeclaredType) (next : String → Naming α)
  | note (event : Event) (next : Naming α)

namespace Naming

variable {α β γ : Type}

/-- Goes on with the value of a computation. -/
def bind : Naming α → (α → Naming β) → Naming β
  | done value, f => f value
  | fail error, _ => fail error
  | ask type next, f => ask type fun name => (next name).bind f
  | note event next, f => note event (next.bind f)

instance : Monad Naming where
  pure := done
  bind := bind

/-- Asks for the name of a declared type. -/
def nameOf (type : DeclaredType) : Naming String := ask type done

/-- Notes an event. -/
def report (event : Event) : Naming Unit := note event (done ())

@[simp] theorem pure_eq (a : α) : (pure a : Naming α) = done a := rfl

@[simp] theorem done_bind (a : α) (f : α → Naming β) : done a >>= f = f a := rfl

@[simp] theorem fail_bind (e : NamingError) (f : α → Naming β) : fail e >>= f = fail e := rfl

@[simp] theorem ask_bind (t : DeclaredType) (k : String → Naming α) (f : α → Naming β) :
    ask t k >>= f = ask t fun name => k name >>= f := rfl

@[simp] theorem note_bind (e : Event) (x : Naming α) (f : α → Naming β) :
    note e x >>= f = note e (x >>= f) := rfl

theorem bind_done (x : Naming α) : x >>= done = x := by
  induction x with
  | done _ => rfl
  | fail _ => rfl
  | ask t k ih => exact congrArg (ask t) (funext ih)
  | note e x ih => exact congrArg (note e) ih

theorem bind_bind (x : Naming α) (f : α → Naming β) (g : β → Naming γ) :
    x >>= f >>= g = x >>= fun a => f a >>= g := by
  induction x with
  | done _ => rfl
  | fail _ => rfl
  | ask t k ih => exact congrArg (ask t) (funext ih)
  | note e x ih => exact congrArg (note e) ih

instance : LawfulMonad Naming := LawfulMonad.mk' Naming bind_done (fun _ _ => rfl) bind_bind

/-- The outcome when every declared type has a fixed name. -/
def eval (names : DeclaredType → String) : Naming α → Except NamingError α
  | done value => .ok value
  | fail error => .error error
  | ask type next => (next (names type)).eval names
  | note _ next => next.eval names

/-- The declared types that are asked for, in order. -/
def asked (names : DeclaredType → String) : Naming α → List DeclaredType
  | done _ => []
  | fail _ => []
  | ask type next => type :: (next (names type)).asked names
  | note _ next => next.asked names

@[simp] theorem eval_bind (names : DeclaredType → String) (x : Naming α) (f : α → Naming β) :
    (x >>= f).eval names = x.eval names >>= fun a => (f a).eval names := by
  induction x with
  | done _ => rfl
  | fail _ => rfl
  | ask t k ih => exact ih (names t)
  | note _ _ ih => exact ih

end Naming

end BridgeNames
