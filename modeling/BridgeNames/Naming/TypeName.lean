import BridgeNames.Descriptor.DeclaredType
import BridgeNames.Text.Segments
import BridgeNames.Text.TitleCase

/-!
# Names of declared types

The name of a declared type is settled at one level of its chain and extended inwards from there.

| the level has | its name |
|---|---|
| a name given outright | that name |
| a well-known binary name | the fixed counterpart |
| an enclosing type | the enclosing type's name, `_`, the simple name |
| none of these | a prefix and the simple name |

The first row that applies decides. The prefix is the one given, or else is formed from the
package. In simple names and packages the separator `$` of nested classes becomes `_`; names and
prefixes that are given outright are used as they are.
-/

namespace BridgeNames

/-- Replaces the separator of nested classes by an underscore. -/
def identifier (text : List Char) : List Char := text.map fun c => if c = '$' then '_' else c

/-- The prefix that a dotted package name gives: its components, each in title case. -/
def packagePrefix (packageName : List Char) : List Char :=
  (Text.Segments.ofText '.' packageName).toList.flatMap (identifier ∘ Text.titleCase)

/-- Root types with a fixed counterpart, by binary name. -/
def wellKnownNames : List (String × String) := [
  ("java.lang.Object", "NSObject"),
  ("java.lang.String", "NSString"),
  ("java.lang.Class", "IOSClass"),
  ("java.lang.Number", "NSNumber"),
  ("java.lang.Cloneable", "NSCopying")]

namespace Declaration

/-- The simple name as it stands in an Objective-C name. -/
def baseName (d : Declaration) : String := String.ofList (identifier d.simpleName.toList)

/-- The name that a level has whatever it is nested in. -/
def fixedName? (d : Declaration) : Option String :=
  d.objcName <|> wellKnownNames.lookup d.binaryName

/-- What stands before the simple name at package level. -/
def namePrefix (d : Declaration) : String :=
  match d.objcPrefix, d.packageName with
  | some given, _ => given
  | none, some package => String.ofList (packagePrefix package.toList)
  | none, none => ""

/-- The name at package level, where none is fixed. -/
def outerName (d : Declaration) : String := d.namePrefix ++ d.baseName

/-- The name inside a type of the given name, where none is fixed. -/
def nameInside (d : Declaration) (enclosing : String) : String := enclosing ++ "_" ++ d.baseName

end Declaration

/-- **The Objective-C name of a declared type.** -/
def DeclaredType.name : DeclaredType → String
  | .topLevel d => d.fixedName?.getD d.outerName
  | .nested d e => d.fixedName?.getD (d.nameInside e.name)

end BridgeNames
