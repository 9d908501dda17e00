import BridgeNames.Marker
import BridgeNames.Supply.Basic

/-!
# The namer

A namer answers the requests of a generator under fixed options. With caching on it keeps the
names of types from one request to the next; with caching off its store stays empty. Names do not
depend on that choice as long as binary names identify types.
-/

namespace BridgeNames

/-- What a generator asks of a namer. -/
inductive Request where
  | typeName (type : DeclaredType)
  | typeMarker (type : DeclaredType)
  | useName (use : TypeUse) (rootAsId : Bool)
  | methodNames (method : Method)
  | methodMarkers (method : Method)
  | fileMarker
  deriving DecidableEq

/-- What a namer answers. -/
inductive Reply where
  | text (text : String)
  | marker (marker : NameMarker)
  | useName (result : Except NamingError String)
  | methodNames (result : Except NamingError (Option MethodNames))
  | methodMarkers (result : Except NamingError (Option MethodMarkers))

namespace NamingOptions

/-- Where names of types come from under the options. -/
def supplier (o : NamingOptions) : Supplier NameCache := if o.cacheTypeNames then cached else direct

/-- The names of a method; a failure is logged. -/
def methodNames (o : NamingOptions) (m : Method) :
    Run NameCache (Except NamingError (Option MethodNames)) := do
  let result ← m.names.run o.supplier
  if let .error e := result then Run.log (.methodFailed m.name e)
  return result

/-- The markers of a method; it is logged whether there are any. -/
def methodMarkers (o : NamingOptions) (m : Method) :
    Run NameCache (Except NamingError (Option MethodMarkers)) := do
  match ← o.methodNames m with
  | .error e => return .error e
  | .ok names =>
    Run.log (.methodMarked m.name names.isSome)
    return .ok (names.map (·.markers o.exactMethodNames))

end NamingOptions

/-- Answers one request. -/
def Request.answer (o : NamingOptions) : Request → Run NameCache Reply
  | typeName t => return .text (← o.supplier t)
  | typeMarker t => return .marker { name := ← o.supplier t }
  | useName u rootAsId => return .useName (← (u.name rootAsId).run o.supplier)
  | methodNames m => return .methodNames (← o.methodNames m)
  | methodMarkers m => return .methodMarkers (← o.methodMarkers m)
  | fileMarker => return .text fileMarkerText

/-- A namer between two requests. -/
structure Namer where
  options : NamingOptions := {}
  cache : NameCache := .empty

namespace Namer

/-- Makes a namer; that is logged. -/
def create (options : NamingOptions) : Namer × List Event :=
  ({ options }, [.namerCreated options])

/-- Answers one request: the namer afterwards, the reply, and what was logged. -/
def respond (n : Namer) (request : Request) : Namer × Reply × List Event :=
  let outcome := request.answer n.options n.cache
  ({ n with cache := outcome.store }, outcome.value, outcome.events)

end Namer

end BridgeNames
