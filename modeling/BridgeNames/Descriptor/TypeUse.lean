import BridgeNames.Descriptor.DeclaredType

/-!
# Uses of types

A parameter's type is a primitive or a declared type under any number of array and type-variable
layers. What is left when all layers are taken off is the **leaf**.
-/

namespace BridgeNames

/-- The primitive types. `void` is a return type only. -/
inductive Primitive where
  | boolean | byte | short | int | long | char | float | double | void
  deriving DecidableEq, Repr

namespace Primitive

/-- All primitives, in the order in which messages list them. -/
def all : List Primitive := [boolean, byte, short, int, long, char, float, double, void]

/-- The keyword that writes the primitive. -/
def keyword : Primitive → String
  | boolean => "boolean"
  | byte => "byte"
  | short => "short"
  | int => "int"
  | long => "long"
  | char => "char"
  | float => "float"
  | double => "double"
  | void => "void"

theorem mem_all (p : Primitive) : p ∈ all := by cases p <;> decide

end Primitive

/-- A type where it is used. -/
inductive TypeUse where
  | primitive (kind : Primitive)
  | array (element : TypeUse) (dimensions : UInt32)
  | declared (type : DeclaredType)
  | typeVariable (bound : TypeUse)
  deriving DecidableEq, Repr

/-- What a use of a type bottoms out in. -/
inductive Leaf where
  | primitive (kind : Primitive)
  | declared (type : DeclaredType)
  deriving DecidableEq, Repr

namespace TypeUse

/-- The use without its array and type-variable layers. -/
def leaf : TypeUse → Leaf
  | primitive kind => .primitive kind
  | array element _ => element.leaf
  | declared type => .declared type
  | typeVariable bound => bound.leaf

/-- The dimensions of the array layers, the outermost first. -/
def arrayLayers : TypeUse → List UInt32
  | primitive _ => []
  | array element dimensions => dimensions :: element.arrayLayers
  | declared _ => []
  | typeVariable bound => bound.arrayLayers

/-- An array of the given number of dimensions, at least one. -/
def arrayOf (element : TypeUse) (dimensions : UInt32) : TypeUse :=
  array element (if dimensions = 0 then 1 else dimensions)

end TypeUse

end BridgeNames
