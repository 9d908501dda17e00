import BridgeNames.Naming.Error
import BridgeNames.Options.Basic
import BridgeNames.Text.Quoted

/-!
# Events

What a naming run reports about itself. `Event` says what happened; `Event.record` is the log
record that tells it: a level, the part of the program that speaks, a message and named fields.
-/

namespace BridgeNames

/-- What happened. -/
inductive Event where
  /-- A namer was made. -/
  | namerCreated (options : NamingOptions)
  /-- A declared type got its name by computation. -/
  | typeResolved (binaryName name : String)
  /-- A selector segment shares no usable prefix with the method's name and was halved. -/
  | segmentHalved (method selector segment : String)
  /-- A method has more or fewer labels than parameters. -/
  | labelMismatch (method : String) (selector : Option String) (parameters labels : Nat)
  /-- A method's names could not be formed. -/
  | methodFailed (method : String) (error : NamingError)
  /-- The markers of a method were asked for. -/
  | methodMarked (method : String) (annotated : Bool)
  deriving DecidableEq, Repr

/-- How much an event matters. -/
inductive LogLevel where
  | trace | debug | warn
  deriving DecidableEq, Repr

/-- The word that a log shows for a level. -/
def LogLevel.word : LogLevel → String
  | trace => "TRACE"
  | debug => "DEBUG"
  | warn => "WARN"

/-- The value of a field. -/
inductive FieldValue where
  | text (s : String)
  | flag (b : Bool)
  | count (n : Nat)
  deriving DecidableEq, Repr

/-- An event as it is logged. -/
structure LogRecord where
  level : LogLevel
  target : String
  message : String
  fields : List (String × FieldValue)
  deriving DecidableEq, Repr

/-- The part of the program that names types. -/
def typeNamesTarget : String := "objcname_emitter::type_names"

/-- The part of the program that takes selectors apart. -/
def selectorsTarget : String := "objcname_emitter::selectors"

/-- The part of the program that answers requests. -/
def namerTarget : String := "objcname_emitter::namer"

/-- The log record of an event. -/
def Event.record : Event → LogRecord
  | namerCreated options =>
    ⟨.debug, namerTarget, "creating ObjCNamer", [("options", .text options.logText)]⟩
  | typeResolved binaryName name =>
    ⟨.trace, typeNamesTarget, "resolved type name",
      [("symbol", .text binaryName), ("name", .text name)]⟩
  | segmentHalved method selector segment =>
    ⟨.debug, selectorsTarget, "no usable shared prefix, splitting selector segment in half",
      [("method", .text method), ("selector", .text selector), ("segment", .text segment)]⟩
  | labelMismatch method selector parameters labels =>
    ⟨.warn, selectorsTarget, "Objective-C selector does not match the parameter count",
      [("method", .text method), ("selector", .text (Text.quotedOption selector)),
        ("parameters", .count parameters), ("labels", .count labels)]⟩
  | methodFailed method error =>
    ⟨.debug, namerTarget, "method naming failed",
      [("method", .text method), ("code", .text error.code), ("err", .text error.message)]⟩
  | methodMarked method annotated =>
    ⟨.trace, namerTarget, "method annotations",
      [("method", .text method), ("annotated", .flag annotated)]⟩

end BridgeNames
