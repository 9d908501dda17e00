/-!
# Declared types

A declared type is described level by level: its own declaration, then the declaration of the
type it is nested in, and so on out to a declaration at package level. The chain of levels is the
shape of `DeclaredType` itself, so walking outwards always ends.

Binary names identify types. Nothing here demands that two descriptions with one binary name
agree; what follows when they do not is a matter of the name cache.
-/

namespace BridgeNames

/-- One level of a declared type, as the front end describes it. -/
structure Declaration where
  /-- The name that identifies the type, such as `com.acme.Outer$Inner`. -/
  binaryName : String
  /-- The name as it stands in the source; that of an anonymous class holds a `$`. -/
  simpleName : String
  /-- The dotted package name. -/
  packageName : Option String := none
  /-- An Objective-C name that is given outright. -/
  objcName : Option String := none
  /-- What stands before the simple name in place of the package. -/
  objcPrefix : Option String := none
  deriving DecidableEq, Repr

/-- A declared type: its declaration and, if it is nested, the type around it. -/
inductive DeclaredType where
  | topLevel (declaration : Declaration)
  | nested (declaration : Declaration) (enclosing : DeclaredType)
  deriving DecidableEq, Repr

namespace DeclaredType

/-- The type's own level. -/
def declaration : DeclaredType → Declaration
  | topLevel d => d
  | nested d _ => d

/-- The type it is nested in. -/
def enclosing? : DeclaredType → Option DeclaredType
  | topLevel _ => none
  | nested _ e => some e

/-- All levels, the innermost first. -/
def chain : DeclaredType → List Declaration
  | topLevel d => [d]
  | nested d e => d :: e.chain

def binaryName (t : DeclaredType) : String := t.declaration.binaryName

/-- The root of all types. -/
def isObjectRoot (t : DeclaredType) : Bool := t.binaryName == "java.lang.Object"

theorem chain_ne_nil (t : DeclaredType) : t.chain ≠ [] := by
  cases t <;> simp [chain]

/-! ### Describing a type -/

/-- Changes the innermost level. -/
def modify (t : DeclaredType) (change : Declaration → Declaration) : DeclaredType :=
  match t with
  | topLevel d => topLevel (change d)
  | nested d e => nested (change d) e

/-- A type at package level that is known by two names alone. -/
def ofNames (binaryName simpleName : String) : DeclaredType := topLevel { binaryName, simpleName }

/-- Cuts a dotted name before its last component, if it has a dot. -/
def splitLastDot? : List Char → Option (List Char × List Char)
  | [] => none
  | c :: rest =>
    match splitLastDot? rest with
    | some (front, back) => some (c :: front, back)
    | none => if c = '.' then some ([], rest) else none

/-- A type at package level, described by its dotted name. -/
def ofQualifiedName (name : String) : DeclaredType :=
  match splitLastDot? name.toList with
  | some (front, back) =>
    topLevel {
      binaryName := name
      simpleName := String.ofList back
      packageName := some (String.ofList front) }
  | none => ofNames name name

/-- The type of a simple name that is nested in another, in the same package. -/
def nestedIn (enclosing : DeclaredType) (simpleName : String) : DeclaredType :=
  nested {
      binaryName := enclosing.binaryName ++ "$" ++ simpleName
      simpleName
      packageName := enclosing.declaration.packageName }
    enclosing

/-- The same declaration, nested in the given type. -/
def within (t enclosing : DeclaredType) : DeclaredType := nested t.declaration enclosing

end DeclaredType

end BridgeNames
