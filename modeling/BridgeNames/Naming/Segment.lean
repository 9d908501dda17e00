import BridgeNames.Text.CommonPrefix
import BridgeNames.Text.Segments
import BridgeNames.Text.Units

/-!
# Selectors and their first segment

A selector is a list of segments that end in `:`. Its first segment holds two names at once: that
of the method and the label of the first parameter.

* For a constructor the method's part is `initWith`, and the rest is the label.
* Otherwise the method's part is what the segment shares with the method's own name. If that is
  nothing, or the whole segment, the segment is cut half way. Half way is an arbitrary place, but
  callers rely on it.
-/

namespace BridgeNames

open Text

/-- The segments of a selector. -/
def selectorSegments (selector : String) : Segments := Segments.ofText ':' selector.toList

/-- The first segment is what stands before the first colon. -/
theorem first_selectorSegments (selector : String) :
    (selectorSegments selector).first = selector.toList.takeWhile (· ≠ ':') :=
  Segments.first_ofText ':' selector.toList

/-- The segments of a selector as strings. -/
def splitSelector (selector : String) : List String :=
  (selectorSegments selector).toList.map String.ofList

/-- What follows `initWith`, if the segment starts so. -/
def afterInitWith? (segment : List Char) : Option (List Char) :=
  let front := "initWith".toList
  if front.isPrefixOf segment then some (segment.drop front.length) else none

/-- Cuts a segment after what it shares with the method's name, if that is a usable part. -/
def cutShared? (methodName segment : List Char) : Option (List Char × List Char) :=
  let shared := commonPrefix methodName segment
  if shared ≠ [] ∧ shared ≠ segment then some (shared, segment.drop shared.length) else none

end BridgeNames
