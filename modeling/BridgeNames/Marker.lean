import BridgeNames.Naming.MethodNames

/-!
# Markers

A marker is the annotation that carries a name into generated code. Its text holds the name as a
string literal in which `$` is escaped, so that the literal never starts a template.
-/

namespace BridgeNames

/-- The marker of a declaration. -/
structure NameMarker where
  name : String
  /-- Whether the name is to be used as it is; markers of parameters and types do not say. -/
  exact : Option Bool := none
  deriving DecidableEq, Repr

/-- How a character is written in a string literal. -/
def literalChar (c : Char) : List Char :=
  match c with
  | '"' => ['\\', '"']
  | '\\' => ['\\', '\\']
  | '$' => ['\\', '$']
  | '\n' => ['\\', 'n']
  | '\r' => ['\\', 'r']
  | '\t' => ['\\', 't']
  | c => [c]

/-- A string literal. -/
def stringLiteral (s : String) : String :=
  String.ofList ('"' :: s.toList.flatMap literalChar ++ ['"'])

/-- The text of a marker. -/
def NameMarker.text (marker : NameMarker) : String :=
  "@kotlin.native.ObjCName(" ++ stringLiteral marker.name ++
    (match marker.exact with
      | some exact => ", exact = " ++ flagText exact
      | none => "") ++ ")"

/-- The marker of a file that holds other markers. -/
def fileMarkerText : String :=
  "@file:kotlin.OptIn(kotlin.experimental.ExperimentalObjCName::class)"

/-- The markers of a method and of its parameters. -/
structure MethodMarkers where
  method : NameMarker
  parameters : List NameMarker
  deriving DecidableEq, Repr

/-- The markers that carry the names of a method. A method that keeps its own name has an empty
marker. -/
def MethodNames.markers (names : MethodNames) (exact : Bool) : MethodMarkers where
  method := { name := names.name.getD "", exact := some exact }
  parameters := names.labels.map fun label => { name := label }

end BridgeNames
