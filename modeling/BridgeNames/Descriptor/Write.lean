import BridgeNames.Descriptor.Method
import BridgeNames.Json.Value

/-!
# Descriptions as JSON

How descriptions are written: fields by name in a fixed order, absent ones left out; a use of a
type as an object with one member, whose key says what kind of use it is.
-/

namespace BridgeNames

open Json

/-- A member for a text that may be absent. -/
def optionalMember (key : String) : Option String → List (String × Value)
  | none => []
  | some s => [(key, .string s)]

namespace Declaration

/-- The members that come before the enclosing type. -/
def leadingMembers (d : Declaration) : List (String × Value) :=
  [("qualifiedBinaryName", .string d.binaryName), ("simpleSourceName", .string d.simpleName)]

/-- The members that come after the enclosing type. -/
def trailingMembers (d : Declaration) : List (String × Value) :=
  optionalMember "packageName" d.packageName ++ optionalMember "objcName" d.objcName ++
    optionalMember "objcNamePrefix" d.objcPrefix

end Declaration

/-- A declared type as JSON. -/
def DeclaredType.toValue : DeclaredType → Value
  | .topLevel d => .object (d.leadingMembers ++ d.trailingMembers)
  | .nested d e => .object (d.leadingMembers ++ ("enclosing", e.toValue) :: d.trailingMembers)

/-- A use of a type as JSON. -/
def TypeUse.toValue : TypeUse → Value
  | primitive kind => .object [("primitive", .string kind.keyword)]
  | array element dimensions =>
    .object [("array", .object
      [("element", element.toValue), ("dimensions", .ofNat dimensions.toNat)])]
  | declared type => .object [("declared", type.toValue)]
  | typeVariable bound => .object [("typeVariable", .object [("upperBound", bound.toValue)])]

/-- A primitive as JSON. -/
def Primitive.toValue (kind : Primitive) : Value := .string kind.keyword

/-- A visibility as JSON. -/
def Visibility.toValue (v : Visibility) : Value := .string v.keyword

/-- A parameter as JSON. -/
def Parameter.toValue (p : Parameter) : Value :=
  .object [("name", .string p.name), ("type", p.type.toValue)]

/-- A method as JSON. -/
def Method.toValue (m : Method) : Value :=
  .object ([
    ("name", .string m.name),
    ("parameters", .array (m.parameters.map Parameter.toValue)),
    ("isConstructor", .bool m.isConstructor),
    ("visibility", m.visibility.toValue)] ++ optionalMember "objcName" m.selector ++
    [("isSyntheticOverride", .bool m.isGeneratedOverride)])

end BridgeNames
