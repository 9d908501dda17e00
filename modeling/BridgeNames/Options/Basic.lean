/-!
# Naming options

Two switches, each with a default that holds where nothing is said.
-/

namespace BridgeNames

/-- What can be chosen about naming. -/
structure NamingOptions where
  /-- The value of `exact` on the markers of methods. -/
  exactMethodNames : Bool := false
  /-- Whether names of types are kept from one request to the next. -/
  cacheTypeNames : Bool := true
  deriving DecidableEq, Repr

/-- The word for a switch. -/
def flagText (b : Bool) : String := if b then "true" else "false"

/-- The options as a log shows them. -/
def NamingOptions.logText (o : NamingOptions) : String :=
  "ObjCNameOptions \x7b exact_method_names: " ++ flagText o.exactMethodNames ++
    ", cache_type_names: " ++ flagText o.cacheTypeNames ++ " \x7d"

end BridgeNames
