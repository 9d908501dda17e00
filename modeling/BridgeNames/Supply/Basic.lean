import BridgeNames.Naming.MethodNames
import BridgeNames.Supply.NameCache
import BridgeNames.Supply.Run

/-!
# Suppliers of names

A supplier answers the question for the name of a declared type by a run over a store. There are
three: one works every name out anew, one keeps names in a cache, and one reads them off a table.

The first two follow one rule, `Declaration.resolve`: the name of a level is fixed or is formed
from the name of the enclosing type, for which the supplier is asked in turn; then it is logged.
They differ in what they do around that rule, which is the argument of `supplyVia`.

The cache looks a type up by its binary name, works the name out if there is none, and keeps it.
Working it out may itself have filled the entry, for an enclosing type of the same binary name;
then the answer is the name already kept.

Working names out anew gives the names of the types and leaves the store alone: see
`BridgeNames.direct_apply`.
-/

namespace BridgeNames

/-- What answers the question for the name of a declared type. -/
abbrev Supplier (σ : Type) : Type := DeclaredType → Run σ String

variable {σ α : Type}

/-- Works out the name of a level, given how to get the name of the enclosing type, and logs
it. -/
def Declaration.resolve (d : Declaration) (enclosing? : Option (Run σ String)) :
    Run σ String := do
  let name ← match d.fixedName?, enclosing? with
    | some name, _ => pure name
    | none, some enclosing => d.nameInside <$> enclosing
    | none, none => pure d.outerName
  Run.log (.typeResolved d.binaryName name)
  return name

/-- Works out the name of a declared type, asking the supplier for the enclosing type only. -/
def Supplier.compute (supplier : Supplier σ) (t : DeclaredType) : Run σ String :=
  t.declaration.resolve (t.enclosing?.map supplier)

/-- The supplier that works names out level by level and does `around` at each. -/
def supplyVia (around : Declaration → Run σ String → Run σ String) : Supplier σ
  | .topLevel d => around d (d.resolve none)
  | .nested d e => around d (d.resolve (some (supplyVia around e)))

/-- A level's name is what `around` makes of its computation. -/
theorem supplyVia_eq (around : Declaration → Run σ String → Run σ String) (t : DeclaredType) :
    supplyVia around t = around t.declaration (Supplier.compute (supplyVia around) t) := by
  cases t <;> rfl

/-- Works every name out anew. -/
def direct : Supplier σ := supplyVia fun _ compute => compute

/-- Looks a name up, and works it out and keeps it if there is none. -/
def NameCache.lookUpOr (d : Declaration) (compute : Run NameCache String) :
    Run NameCache String := fun cache =>
  match cache.find? d.binaryName with
  | some name => ⟨name, cache, []⟩
  | none =>
    let outcome := compute cache
    ⟨(outcome.store.find? d.binaryName).getD outcome.value,
      outcome.store.keep d.binaryName outcome.value, outcome.events⟩

/-- Keeps names in a cache. -/
def cached : Supplier NameCache := supplyVia NameCache.lookUpOr

/-- Reads names off a table; a binary name that is missing there stands for itself between angle
brackets. -/
def tabled (table : List (String × String)) : Supplier σ := fun t =>
  return (table.lookup t.binaryName).getD ("<" ++ t.binaryName ++ ">")

/-- Works a naming computation out with the answers of a supplier. -/
def Naming.run (supplier : Supplier σ) : Naming α → Run σ (Except NamingError α)
  | .done value => return .ok value
  | .fail error => return .error error
  | .ask type next => supplier type >>= fun name => (next name).run supplier
  | .note event next => Run.log event >>= fun _ => next.run supplier

/-! ### Working names out anew

Without a cache the answers are the names of the types, and the store is left alone. -/

theorem direct_apply (t : DeclaredType) (s : σ) :
    (direct t s).value = t.name ∧ (direct t s).store = s := by
  induction t with
  | topLevel d =>
    cases h : d.fixedName? <;> simp [direct, supplyVia, Declaration.resolve, DeclaredType.name, h]
  | nested d e ih =>
    obtain ⟨hvalue, hstore⟩ := ih
    rw [direct] at hvalue hstore
    cases h : d.fixedName? <;>
      simp [direct, supplyVia, Declaration.resolve, DeclaredType.name, h, hvalue, hstore]

end BridgeNames
