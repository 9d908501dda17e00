import BridgeNames.Descriptor.TypeUse

/-!
# Why a name cannot be formed

Each of these means that a description breaks a rule of naming; none is the fault of a user.
-/

namespace BridgeNames

/-- The ways in which naming fails. -/
inductive NamingError where
  /-- A primitive without a name, `void`, stands where a parameter's type is named. -/
  | unexpectedPrimitive (kind : Primitive)
  /-- A selector segment has too few units to be cut in two. -/
  | segmentTooShort (segment : String)
  /-- The first segment of a constructor's selector takes its label from a parameter, and there
  is none. -/
  | constructorWithoutParameters (selector : String)
  deriving DecidableEq, Repr

namespace NamingError

/-- A short code, the same for all errors of one cause. -/
def code : NamingError → String
  | unexpectedPrimitive _ => "unexpected-primitive"
  | segmentTooShort _ => "selector-too-short"
  | constructorWithoutParameters _ => "constructor-without-parameters"

/-- The error in words. -/
def message : NamingError → String
  | unexpectedPrimitive kind =>
    "internal compiler error: unexpected primitive type `" ++ kind.keyword ++
      "` in Objective-C name"
  | segmentTooShort segment =>
    "internal compiler error: cannot split Objective-C selector segment `" ++ segment ++
      "` into a method name and a parameter name"
  | constructorWithoutParameters selector =>
    "internal compiler error: constructor selector `" ++ selector ++
      "` needs a parameter to name its first segment"

end NamingError

end BridgeNames
