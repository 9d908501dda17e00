import BridgeNames.Decimal.Double
import BridgeNames.Json.Number
import BridgeNames.Json.Tree
import BridgeNames.Text.Quoted

/-!
# Shapes

A reader takes a tree for a value of some shape, or says what is wrong first: a fault of the text,
or a shape other than the wanted one. The causes of the second kind are the constructors of
`ShapeError`, and `ShapeError.message` words them.

Containers may be nested to a limited depth. A reader of a shape with containers is given the
number of levels that may still be opened; opening one more than that is a fault of the text.
-/

namespace BridgeNames.Json

/-- What was found in place of the wanted shape. -/
inductive Found where
  | null
  | bool (b : Bool)
  | natural (n : Nat)
  /-- The integer `-n`. -/
  | negative (n : Nat)
  | double (f : Float)
  | string (s : String)
  | sequence
  | map
  /-- The bare name of a variant that has content. -/
  | bareVariant

/-- How a shape differs from the wanted one. -/
inductive ShapeError where
  | wrongType (found : Found) (wanted : String)
  | wrongValue (found : Found) (wanted : String)
  | wrongLength (length : Nat) (wanted : String)
  | missingField (key : String)
  | duplicateField (key : String)
  | unknownField (key : String) (known : List String)
  | unknownVariant (key : String) (known : List String)

/-- Why a text is not taken for a value. -/
inductive ReadError where
  | shape (error : ShapeError)
  | fault (fault : Fault)

/-- Takes a tree for a value. -/
abbrev Reader (α : Type) : Type := Tree → Except ReadError α

/-- The levels of containers that may be opened in a text. -/
def levelLimit : Nat := 127

/-! ### Messages -/

/-- What was found, in words. -/
def Found.text : Found → String
  | null => "null"
  | bool b => "boolean `" ++ (if b then "true" else "false") ++ "`"
  | natural n => "integer `" ++ toString n ++ "`"
  | negative n => "integer `-" ++ toString n ++ "`"
  | double f => "floating point `" ++ Decimal.doubleText f ++ "`"
  | string s => "string " ++ Text.quoted s
  | sequence => "sequence"
  | map => "map"
  | bareVariant => "unit variant"

/-- A list of names to choose from. -/
def choiceText (names : List String) : String :=
  let ticked := names.map fun name => "`" ++ name ++ "`"
  match ticked with
  | [] => "nothing"
  | [one] => one
  | [one, two] => one ++ " or " ++ two
  | several => "one of " ++ ", ".intercalate several

/-- The error in words. -/
def ShapeError.message : ShapeError → String
  | wrongType found wanted => "invalid type: " ++ found.text ++ ", expected " ++ wanted
  | wrongValue found wanted => "invalid value: " ++ found.text ++ ", expected " ++ wanted
  | wrongLength length wanted => "invalid length " ++ toString length ++ ", expected " ++ wanted
  | missingField key => "missing field `" ++ key ++ "`"
  | duplicateField key => "duplicate field `" ++ key ++ "`"
  | unknownField key known => "unknown field `" ++ key ++ "`, expected " ++ choiceText known
  | unknownVariant key known => "unknown variant `" ++ key ++ "`, expected " ++ choiceText known

/-! ### Plain shapes -/

/-- A shape error as the outcome of a reader. -/
def refuse {α : Type} (error : ShapeError) : Except ReadError α := .error (.shape error)

/-- A fault of the text as the outcome of a reader. -/
def fail {α : Type} (fault : Fault) : Except ReadError α := .error (.fault fault)

/-- Reading a numeral of the wrong shape. -/
def Number.unexpected {α : Type} (wanted : String) : Number → Except ReadError α
  | natural n => refuse (.wrongType (.natural n) wanted)
  | negative n => refuse (.wrongType (.negative n) wanted)
  | double f => refuse (.wrongType (.double f) wanted)
  | outOfRange => fail .malformed

/-- The string, or the fault that reading it meets. -/
def Quotation.read : Quotation → Except ReadError String
  | text s => .ok s
  | unpaired => fail .malformed
  | broken read _ => fail read

/-- Reading a tree of the wrong shape: it is looked at as far as is needed to say what it is. Of a
container that is the opening bracket. -/
def Tree.unexpected {α : Type} (wanted : String) : Tree → Except ReadError α
  | missing fault => fail fault
  | null => refuse (.wrongType .null wanted)
  | bool b => refuse (.wrongType (.bool b) wanted)
  | brokenWord fault => fail fault
  | number n => n.value.unexpected wanted
  | brokenNumber fault => fail fault
  | string q => do refuse (.wrongType (.string (← q.read)) wanted)
  | array .. => refuse (.wrongType .sequence wanted)
  | object .. => refuse (.wrongType .map wanted)
  | keyless _ => refuse (.wrongType .map wanted)

/-- Reads a string. -/
def readString : Reader String
  | .string q => q.read
  | tree => tree.unexpected "a string"

/-- Reads a truth value. -/
def readBool : Reader Bool
  | .bool b => .ok b
  | tree => tree.unexpected "a boolean"

/-- Reads `null`. -/
def readNull : Reader Unit
  | .null => .ok ()
  | tree => tree.unexpected "unit"

/-- Reads a natural number of 32 bits. -/
def readUInt32 : Reader UInt32
  | .number n =>
    match n.value with
    | .natural n =>
      if n < UInt32.size then .ok (UInt32.ofNat n) else refuse (.wrongValue (.natural n) "u32")
    | .negative n => refuse (.wrongValue (.negative n) "u32")
    | number => number.unexpected "u32"
  | tree => tree.unexpected "u32"

/-- Reads `null` as nothing, and anything else by the given reader. -/
def readOptional {α : Type} (reader : Reader α) : Reader (Option α)
  | .null => .ok none
  | tree => some <$> reader tree

/-- How a list ends that has been read to its last item. -/
def closed : Option Fault → Except ReadError Unit
  | none => .ok ()
  | some fault => fail fault

/-- The outcome at a container when no level may be opened any more. -/
def readTooDeep {α : Type} (wanted : String) : Reader α
  | .array .. | .object .. | .keyless _ => fail .malformed
  | tree => tree.unexpected wanted

/-- Reads an array whose items have one shape; the items may open a level less. -/
def readList {α : Type} (item : Nat → Reader α) : Nat → Reader (List α)
  | levels + 1, .array items stop => do
    let values ← items.mapM (item levels)
    closed stop
    return values
  | 0, tree => readTooDeep "a sequence" tree
  | _, tree => tree.unexpected "a sequence"

/-- Reads a whole text, in which only blanks may follow the value. -/
def readText {α : Type} (reader : Nat → Reader α) (text : String) : Except ReadError α := do
  let (tree, rest) := Tree.ofText text.toList
  let value ← reader levelLimit tree
  if rest = [] then return value else fail .malformed

end BridgeNames.Json
