import BridgeNames.Descriptor.TypeUse

/-!
# Methods

Only methods that a caller from outside can reach get names: public and protected ones that are
not generated overrides. `Method.isExposed` is that test.
-/

namespace BridgeNames

/-- Who may call a method. -/
inductive Visibility where
  | publicAccess | protectedAccess | privateAccess | packageAccess
  deriving DecidableEq, Repr

namespace Visibility

/-- All visibilities, in the order in which messages list them. -/
def all : List Visibility := [publicAccess, protectedAccess, privateAccess, packageAccess]

/-- The keyword that writes the visibility. -/
def keyword : Visibility → String
  | publicAccess => "public"
  | protectedAccess => "protected"
  | privateAccess => "private"
  | packageAccess => "package"

/-- Members that an Objective-C caller can reach. -/
def isReachable : Visibility → Bool
  | publicAccess | protectedAccess => true
  | privateAccess | packageAccess => false

theorem mem_all (v : Visibility) : v ∈ all := by cases v <;> decide

end Visibility

/-- A parameter of a method. -/
structure Parameter where
  name : String
  type : TypeUse
  deriving DecidableEq, Repr

/-- A method or constructor, as the front end describes it. -/
structure Method where
  name : String
  parameters : List Parameter := []
  isConstructor : Bool := false
  visibility : Visibility := .publicAccess
  /-- A selector that is given outright, such as `initWithName:age:`. -/
  selector : Option String := none
  /-- A generated override, which is not annotated a second time. -/
  isGeneratedOverride : Bool := false
  deriving DecidableEq, Repr

namespace Method

/-- The name of every constructor. -/
def constructorName : String := "<init>"

/-- A constructor without parameters. -/
def constructor : Method := { name := constructorName, isConstructor := true }

/-- Whether the method gets names at all. -/
def isExposed (m : Method) : Bool := m.visibility.isReachable && !m.isGeneratedOverride

end Method

end BridgeNames
