import BridgeNames.Json.Token

/-!
# What can be read off a text

A text is read once, into the tree of all that can be read off it from the left. If the text stops
being JSON, so does its tree: where something is missing or broken off stands how the text stops
there, and every list around that place has no closing bracket.

What shape is wanted is decided on the tree, again from left to right. So the first fault wins
whether it is one of shape or of the text, and no reader of shapes has to look at characters.

The tree is built by a machine that takes one token at a time. Its states say what may come next;
its frames hold the containers that are open, the innermost first.
-/

namespace BridgeNames.Json

/-- What can be read off a text from the left. -/
inductive Tree where
  /-- There is no value. -/
  | missing (fault : Fault)
  | null
  | bool (b : Bool)
  /-- A word that is not finished as it starts. -/
  | brokenWord (fault : Fault)
  | number (n : Numeral)
  /-- A numeral that is not finished. -/
  | brokenNumber (fault : Fault)
  | string (q : Quotation)
  /-- Items, and how the text stops after them if the array is not closed. -/
  | array (items : List Tree) (stop : Option Fault)
  /-- Members, and how the text stops after them if the object is not closed. -/
  | object (members : List (Quotation × Tree)) (stop : Option Fault)
  /-- An object without a first key, and how the text stops where that key should stand. -/
  | keyless (fault : Fault)
  deriving Repr

/-- An open container around the place that is being read. -/
inductive Frame where
  /-- The items so far, the newest first. -/
  | array (before : List Tree)
  /-- The members so far, the newest first, and the key of the value that is being read. -/
  | object (before : List (Quotation × Tree)) (key : Quotation)

/-- What may come next, inside the given frames. -/
inductive State where
  | beforeValue (frames : List Frame)
  | firstItem (frames : List Frame)
  | firstKey (frames : List Frame)
  | nextKey (before : List (Quotation × Tree)) (frames : List Frame)
  | beforeColon (before : List (Quotation × Tree)) (key : Quotation) (frames : List Frame)
  /-- A value has been read. -/
  | afterValue (value : Tree) (frames : List Frame)

namespace Frame

/-- The container that ends with the given value. -/
def hold (value : Tree) (stop : Option Fault) : Frame → Tree
  | array before => .array (value :: before).reverse stop
  | object before key => .object ((key, value) :: before).reverse stop

/-- The tree of a text that stops behind a value. -/
def stopIn (fault : Fault) (value : Tree) : List Frame → Tree
  | [] => value
  | frame :: frames => stopIn fault (frame.hold value (some fault)) frames

end Frame

namespace State

/-- The tree of a text that stops in this state. -/
def stop (fault : Fault) : State → Tree
  | beforeValue frames => Frame.stopIn fault (.missing fault) frames
  | firstItem frames => Frame.stopIn fault (.missing fault) (.array [] :: frames)
  | firstKey frames => Frame.stopIn fault (.keyless fault) frames
  | nextKey before frames =>
    Frame.stopIn fault (.missing fault) (.object before (.broken fault fault) :: frames)
  | beforeColon before key frames =>
    Frame.stopIn fault (.missing fault) (.object before key :: frames)
  | afterValue value frames => Frame.stopIn fault value frames

/-- The state after the first token of a value, if a value can start so. -/
def startValue (frames : List Frame) : Token → Option State
  | .mark '[' => some (firstItem frames)
  | .mark '{' => some (firstKey frames)
  | .mark _ => none
  | .null => some (afterValue .null frames)
  | .bool b => some (afterValue (.bool b) frames)
  | .brokenWord fault => some (afterValue (.brokenWord fault) frames)
  | .number n => some (afterValue (.number n) frames)
  | .brokenNumber fault => some (afterValue (.brokenNumber fault) frames)
  | .string q => some (afterValue (.string q) frames)

/-- Goes on to the next state; without one the text stops in this state. -/
def orStop (state : State) : Option State → Except Tree State
  | some next => .ok next
  | none => .error (state.stop .malformed)

/-- The state after one more token, or the tree if the text stops being JSON there. -/
def step : State → Token → Except Tree State
  | beforeValue frames, token => (beforeValue frames).orStop (startValue frames token)
  | firstItem frames, .mark ']' => .ok (afterValue (.array [] none) frames)
  | firstItem frames, token =>
    (firstItem frames).orStop (startValue (.array [] :: frames) token)
  | firstKey frames, .mark '}' => .ok (afterValue (.object [] none) frames)
  | firstKey frames, .string key => .ok (beforeColon [] key frames)
  | nextKey before frames, .string key => .ok (beforeColon before key frames)
  | beforeColon before key frames, .mark ':' => .ok (beforeValue (.object before key :: frames))
  | afterValue v (.array before :: frames), .mark ',' =>
    .ok (beforeValue (.array (v :: before) :: frames))
  | afterValue v (.array before :: frames), .mark ']' =>
    .ok (afterValue ((Frame.array before).hold v none) frames)
  | afterValue v (.object before key :: frames), .mark ',' =>
    .ok (nextKey ((key, v) :: before) frames)
  | afterValue v (.object before key :: frames), .mark '}' =>
    .ok (afterValue ((Frame.object before key).hold v none) frames)
  | state, _ => .error (state.stop .malformed)

/-- Runs the machine up to the end of the outermost value: its tree, and the tokens after it. -/
def run : State → List Token → Tree × List Token
  | state, [] => (state.stop .truncated, [])
  | afterValue v [], rest => (v, rest)
  | state, token :: rest =>
    match state.step token with
    | .ok next => run next rest
    | .error tree => (tree, [])

end State

/-- **The tree of a text**, and the tokens that follow its value. -/
def Tree.ofText (text : List Char) : Tree × List Token := (State.beforeValue []).run (tokens text)

/-! ### Skipping -/

/-- How reading the key of a member that is skipped over fails. -/
def Quotation.skipFault? : Quotation → Option Fault
  | text _ => none
  | unpaired => none
  | broken _ skipped => some skipped

mutual

/-- How going over a value without reading it fails, if it does. Nesting has no limit then, and a
numeral that is cut off counts as malformed. -/
def Tree.skipFault? : Tree → Option Fault
  | .missing fault => some fault
  | .null => none
  | .bool _ => none
  | .brokenWord fault => some fault
  | .number _ => none
  | .brokenNumber _ => some .malformed
  | .string q => q.skipFault?
  | .array items stop => skipItems? items <|> stop
  | .object members stop => skipMembers? members <|> stop
  | .keyless fault => some fault

/-- The first fault among items. -/
def skipItems? : List Tree → Option Fault
  | [] => none
  | item :: rest => item.skipFault? <|> skipItems? rest

/-- The first fault among members. -/
def skipMembers? : List (Quotation × Tree) → Option Fault
  | [] => none
  | (key, value) :: rest => key.skipFault? <|> value.skipFault? <|> skipMembers? rest

end

end BridgeNames.Json
