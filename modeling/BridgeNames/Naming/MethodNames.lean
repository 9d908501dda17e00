import BridgeNames.Naming.Segment
import BridgeNames.Naming.UseName
import BridgeNames.Descriptor.Method

/-!
# Names of methods and their parameters

A method's names are a name of its own, which may be missing, and one label per parameter.

Without a selector the labels come from the types of the parameters: `withInt`, `withNSString`.
The first label of a constructor has no `with`, since the constructor is called `initWith` then.

A selector that is given is trusted as it is. It may have too many segments or too few, so the
labels need not match the parameters; `MethodNames.fits` is that test, and a mismatch is noted.
-/

namespace BridgeNames

/-- The names of a method. -/
structure MethodNames where
  /-- The method's own name, if it gets one. -/
  name : Option String := none
  /-- The labels of the parameters. -/
  labels : List String := []
  deriving DecidableEq, Repr

/-- Whether there is exactly one label per parameter. -/
def MethodNames.fits (names : MethodNames) (m : Method) : Bool :=
  names.labels.length == m.parameters.length

/-- The labels of parameters that follow a name. -/
def withLabels : List Parameter → Naming (List String)
  | [] => return []
  | p :: rest => do
    let label ← p.type.label
    let labels ← withLabels rest
    return ("with" ++ label) :: labels

namespace Method

/-- The labels that the types of the parameters give. -/
def derivedLabels (m : Method) : Naming (List String) :=
  match m.isConstructor, m.parameters with
  | true, first :: rest => do
    let label ← first.type.label
    let labels ← withLabels rest
    return label :: labels
  | _, parameters => withLabels parameters

/-- The label of a constructor's first parameter when the selector opens otherwise than with
`initWith`. -/
def openingLabel (m : Method) (selector : String) : Naming String :=
  match m.parameters with
  | [] => .fail (.constructorWithoutParameters selector)
  | first :: _ => first.type.label

/-- The names that a constructor has under a selector. -/
def constructorNames (m : Method) (selector : String) : Naming MethodNames := do
  let segments := selectorSegments selector
  let label ← match afterInitWith? segments.first with
    | some rest => pure (String.ofList rest)
    | none => m.openingLabel selector
  return { name := some selector, labels := label :: segments.others.map String.ofList }

/-- Cuts the first segment of a selector into the method's name and the first label. -/
def cutFirst (m : Method) (selector : String) (segment : List Char) :
    Naming (List Char × List Char) :=
  match cutShared? m.name.toList segment with
  | some cut => return cut
  | none =>
    match Text.halve? segment with
    | some cut => do
      Naming.report (.segmentHalved m.name selector (String.ofList segment))
      return cut
    | none => .fail (.segmentTooShort (String.ofList segment))

/-- The names that a method with parameters has under a selector. -/
def selectedNames (m : Method) (selector : String) : Naming MethodNames := do
  let segments := selectorSegments selector
  let (name, label) ← m.cutFirst selector segments.first
  return {
    name := some (String.ofList name)
    labels := String.ofList label :: segments.others.map String.ofList }

/-- The names of a method that gets names. -/
def exposedNames (m : Method) : Naming MethodNames :=
  match m.selector with
  | none => return { labels := ← m.derivedLabels }
  | some selector =>
    if m.isConstructor then m.constructorNames selector
    else if m.parameters = [] then return { name := some selector }
    else m.selectedNames selector

/-- **The names of a method**, if it gets names at all. -/
def names (m : Method) : Naming (Option MethodNames) :=
  if m.isExposed then do
    let names ← m.exposedNames
    if !names.fits m then
      Naming.report
        (.labelMismatch m.name m.selector m.parameters.length names.labels.length)
    return some names
  else return none

end Method

end BridgeNames
