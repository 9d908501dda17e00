import BridgeNames.Naming.Basic
import BridgeNames.Naming.TypeName

/-!
# Names of uses of types

A primitive is named by its keyword, `void` excepted. An array layer adds `Array` and, above one
dimension, their number. A type variable is named as its bound is.

At a parameter the object root reads `id`. That holds through type variables but not inside an
array, where the element keeps its full name.
-/

namespace BridgeNames

/-- The name of a primitive; `void` has none. -/
def Primitive.name : Primitive → Naming String
  | .void => .fail (.unexpectedPrimitive .void)
  | kind => .done kind.keyword

/-- What an array layer adds to the name of its element. -/
def arraySuffix (dimensions : UInt32) : String :=
  if dimensions > 1 then "Array" ++ toString dimensions.toNat else "Array"

namespace TypeUse

/-- **The name of a use**; with `rootAsId` the object root is `id`. -/
def name (rootAsId : Bool) : TypeUse → Naming String
  | primitive kind => kind.name
  | array element dimensions => do
    let elementName ← element.name false
    return elementName ++ arraySuffix dimensions
  | declared type => if rootAsId && type.isObjectRoot then return "id" else Naming.nameOf type
  | typeVariable bound => bound.name rootAsId

/-- What a parameter of this type contributes to a selector: the name in title case. -/
def label (use : TypeUse) : Naming String := do
  let name ← use.name true
  return Text.titled name

end TypeUse

end BridgeNames
