import BridgeNames.Json.Record
import BridgeNames.Options.Basic

/-!
# Options from text

Options are a record of two switches, both with defaults and nothing else beside them: a
misspelt switch is refused and not skipped.
-/

namespace BridgeNames

open Json

namespace NamingOptions

/-- The fields of the options. -/
def record : Record NamingOptions where
  wanted := "struct ObjCNameOptions"
  fields := [
    .defaulted "exactMethodNames" readBool fun b o => { o with exactMethodNames := b },
    .defaulted "cacheTypeNames" readBool fun b o => { o with cacheTypeNames := b }]
  refusesUnknown := true

/-- Reads options. -/
def read : Nat → Reader NamingOptions
  | 0 => readTooDeep "struct ObjCNameOptions"
  | _ + 1 => record.read {}

end NamingOptions

/-- Why options are not to be had. -/
inductive OptionsError where
  /-- The file at the path does not exist. -/
  | noFile (path : String)
  /-- The file at the path is not text. -/
  | notText (path : String)
  /-- The text does not give options. -/
  | invalid (error : ReadError)

namespace OptionsError

/-- The error in words; a fault of the text has none of its own. -/
def message? : OptionsError → Option String
  | noFile path =>
    some ("failed to read naming options from " ++ path ++
      ": No such file or directory (os error 2)")
  | notText path =>
    some ("failed to read naming options from " ++ path ++ ": stream did not contain valid UTF-8")
  | invalid (.shape error) => some ("invalid naming options: " ++ error.message)
  | invalid (.fault _) => none

end OptionsError

namespace NamingOptions

/-- Reads options from a text. -/
def ofText (text : String) : Except OptionsError NamingOptions :=
  (readText read text).mapError .invalid

/-- Reads options from a file, given what it holds if it exists. -/
def ofFile (path : String) (contents : Option ByteArray) : Except OptionsError NamingOptions :=
  match contents with
  | none => .error (.noFile path)
  | some bytes =>
    match String.fromUTF8? bytes with
    | none => .error (.notText path)
    | some text => ofText text

end NamingOptions

end BridgeNames
