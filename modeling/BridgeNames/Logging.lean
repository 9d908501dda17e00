import BridgeNames.Naming.Event
import BridgeNames.Text.Blank

/-!
# Log settings

How the two settings for logging are read: the form in which events are written, and the
directive that says which events are. Unknown forms fall back to plain lines.
-/

namespace BridgeNames

/-- The form in which events are written. -/
inductive LogFormat where
  | text | tree | json
  deriving DecidableEq, Repr

/-- Reads the name of a form, whatever its case and the blanks around it. -/
def LogFormat.ofSetting (setting : String) : LogFormat :=
  match Text.plainLower (Text.trimmed setting) with
  | "tree" => tree
  | "json" => json
  | _ => text

/-- The directive that shows what is needed to follow up a wrong name. -/
def namesDirective : String :=
  "warn," ++ typeNamesTarget ++ "=trace," ++ selectorsTarget ++ "=debug"

/-- The directive that two settings ask for, if logging is on. The first setting wins; left blank
or `names` it stands for `namesDirective`. -/
def filterDirective (own general : Option String) : Option String :=
  match own.map Text.trimmed with
  | some "" | some "names" => some namesDirective
  | some directive => some directive
  | none => general

end BridgeNames
