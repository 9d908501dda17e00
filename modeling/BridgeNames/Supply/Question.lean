import BridgeNames.Supply.Basic

/-!
# Questions to a supplier

The single questions that can be put to a supplier of names, over a store that a question may
also clear.
-/

namespace BridgeNames

/-- A question to a supplier. -/
inductive Question where
  /-- The name of a declared type. -/
  | typeName (type : DeclaredType)
  /-- The same, but worked out at the outermost step instead of asked for. -/
  | computedName (type : DeclaredType)
  /-- The name of a use of a type. -/
  | useName (use : TypeUse) (rootAsId : Bool)
  /-- The label of a parameter of a type. -/
  | label (use : TypeUse)
  /-- The names of a method. -/
  | methodNames (method : Method)
  /-- Empties the store. -/
  | clear
  deriving DecidableEq

/-- The answer to a question. -/
inductive Answer where
  | name (name : String)
  | useName (result : Except NamingError String)
  | methodNames (result : Except NamingError (Option MethodNames))
  | cleared

/-- Puts a question to a supplier. -/
def Question.put (supplier : Supplier NameCache) : Question → Run NameCache Answer
  | typeName t => return .name (← supplier t)
  | computedName t => return .name (← supplier.compute t)
  | useName u rootAsId => return .useName (← (u.name rootAsId).run supplier)
  | label u => return .useName (← u.label.run supplier)
  | methodNames m => return .methodNames (← m.names.run supplier)
  | clear => fun _ => ⟨.cleared, .empty, []⟩

end BridgeNames
