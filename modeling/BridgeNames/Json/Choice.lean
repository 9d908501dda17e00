import BridgeNames.Json.Shape

/-!
# Choices

A choice between variants is read from a string, the bare name of a variant without content, or
from an object with one member, whose key names the variant and whose value is its content. A
variant without content has the content `null`.

The object must close right after its member. Nothing but a quote or a brace opens a choice, and
nothing but a quote opens the key, so anything else is refused at its first character.
-/

namespace BridgeNames.Json

/-- A variant of a choice. -/
structure Variant (α : Type) where
  key : String
  /-- What the bare name stands for. -/
  bare : Except ReadError α
  /-- Reads the content, given the levels that may still be opened. -/
  content : Nat → Reader α

namespace Variant

variable {α : Type}

/-- A variant without content. -/
def plain (key : String) (value : α) : Variant α where
  key := key
  bare := .ok value
  content _ tree := do
    readNull tree
    return value

/-- A variant with content; messages call its kind `kind`. -/
def holding (key kind : String) (content : Nat → Reader α) : Variant α where
  key := key
  bare := refuse (.wrongType .bareVariant kind)
  content := content

end Variant

/-- The variant of the given name. -/
def findVariant {α : Type} (variants : List (Variant α)) (key : String) :
    Except ReadError (Variant α) :=
  match variants.find? (·.key == key) with
  | some variant => .ok variant
  | none => refuse (.unknownVariant key (variants.map (·.key)))

/-- **Reads a choice.** -/
def readChoice {α : Type} (variants : List (Variant α)) : Nat → Reader α
  | _, .string q => do (← findVariant variants (← q.read)).bare
  | levels + 1, .object ((key, tree) :: others) stop => do
    let variant ← findVariant variants (← key.read)
    let value ← variant.content levels tree
    if others = [] then closed stop else fail .malformed
    return value
  | _ + 1, .keyless fault => fail fault
  | _, .missing fault => fail fault
  | _, _ => fail .malformed

end BridgeNames.Json
