import BridgeNames.Json.Numeral

/-!
# Quoted strings

A JSON string is read in two steps. The first takes it off the front of the text as a list of
pieces, each a character or a UTF-16 unit that was escaped by its number. The second pairs the
units: a high surrogate has to be followed by a low one, and neither stands alone.

A string that is only skipped over goes through the first step alone. So a lone surrogate is no
fault there, and where a text stops inside a string the two ways of going through it may differ
in what they find first. `Quotation` keeps both.
-/

namespace BridgeNames.Json

/-- What stands where a string was opened. -/
inductive Quotation where
  /-- A closed string. -/
  | text (s : String)
  /-- A closed string with a lone surrogate: it can be skipped, not read. -/
  | unpaired
  /-- The text stops inside the string, for one reason if it is read and for one if it is
  skipped. -/
  | broken (read skipped : Fault)
  deriving DecidableEq, Repr

/-- A piece of a string: a character, or a unit escaped by its number. -/
inductive Piece where
  | char (c : Char)
  | unit (n : Nat)
  deriving DecidableEq, Repr

/-- The value of a hexadecimal digit. -/
def hexDigit? (c : Char) : Option Nat :=
  if '0' ≤ c ∧ c ≤ '9' then some (c.toNat - '0'.toNat)
  else if 'a' ≤ c ∧ c ≤ 'f' then some (c.toNat - 'a'.toNat + 10)
  else if 'A' ≤ c ∧ c ≤ 'F' then some (c.toNat - 'A'.toNat + 10)
  else none

/-- The value of four hexadecimal digits. -/
def hexUnit? (a b c d : Char) : Option Nat := do
  return (((← hexDigit? a) * 16 + (← hexDigit? b)) * 16 + (← hexDigit? c)) * 16 + (← hexDigit? d)

/-- What an escape by number that is not followed by four hexadecimal digits is: cut off if
fewer than four bytes are left of the text. -/
def hexFault (rest : List Char) : Fault :=
  if (String.ofList (rest.take 4)).utf8ByteSize < 4 then .truncated else .malformed

/-- The character of an escape by letter. -/
def escapedChar? : Char → Option Char
  | '"' => some '"'
  | '\\' => some '\\'
  | '/' => some '/'
  | 'b' => some '\x08'
  | 'f' => some '\x0c'
  | 'n' => some '\n'
  | 'r' => some '\r'
  | 't' => some '\t'
  | _ => none

/-- The pieces of a string up to its closing quote, or up to the fault where the text stops. -/
structure Pieces where
  pieces : List Piece
  fault : Option Fault
  /-- The text after the closing quote; nothing if the text stops. -/
  rest : List Char

/-- The text stops here. -/
def Pieces.stop (fault : Fault) : Pieces := ⟨[], some fault, []⟩

/-- Puts a piece in front. -/
def Pieces.cons (piece : Piece) (tail : Pieces) : Pieces :=
  { tail with pieces := piece :: tail.pieces }

/-- Reads pieces; the opening quote has been taken off already. -/
def Pieces.read : List Char → Pieces
  | [] => .stop .truncated
  | '"' :: rest => ⟨[], none, rest⟩
  | '\\' :: 'u' :: a :: b :: c :: d :: rest =>
    match hexUnit? a b c d with
    | some n => .cons (.unit n) (Pieces.read rest)
    | none => .stop .malformed
  | '\\' :: 'u' :: rest => .stop (hexFault rest)
  | '\\' :: c :: rest =>
    match escapedChar? c with
    | some e => .cons (.char e) (Pieces.read rest)
    | none => .stop .malformed
  | '\\' :: [] => .stop .truncated
  | c :: rest => if c.toNat < 0x20 then .stop .malformed else .cons (.char c) (Pieces.read rest)

theorem Pieces.length_rest_le (text : List Char) :
    (Pieces.read text).rest.length ≤ text.length := by
  fun_induction Pieces.read text <;>
    simp_all only [Pieces.stop, Pieces.cons, List.length_cons, List.length_nil] <;> omega

/-! ### Pairing units -/

/-- The first half of a pair. -/
def isHighSurrogate (n : Nat) : Bool := 0xd800 ≤ n && n ≤ 0xdbff

/-- The second half of a pair. -/
def isLowSurrogate (n : Nat) : Bool := 0xdc00 ≤ n && n ≤ 0xdfff

/-- The character of a pair. -/
def surrogatePair (high low : Nat) : Char :=
  Char.ofNat (0x10000 + (high - 0xd800) * 0x400 + (low - 0xdc00))

/-- What pieces come to when their units are paired. -/
inductive Pairing where
  /-- Every unit is a character or belongs to a pair. -/
  | whole (chars : List Char)
  /-- The last piece is the first half of a pair. -/
  | halfOpen
  /-- A surrogate stands alone. -/
  | lone

/-- Puts a character in front. -/
def Pairing.cons (c : Char) : Pairing → Pairing
  | whole chars => whole (c :: chars)
  | halfOpen => halfOpen
  | lone => lone

/-- Pairs the units among pieces. -/
def pairUnits : List Piece → Pairing
  | [] => .whole []
  | .char c :: rest => (pairUnits rest).cons c
  | .unit n :: rest =>
    if isHighSurrogate n then
      match rest with
      | [] => .halfOpen
      | .unit m :: rest =>
        if isLowSurrogate m then (pairUnits rest).cons (surrogatePair n m) else .lone
      | .char _ :: _ => .lone
    else if isLowSurrogate n then .lone
    else (pairUnits rest).cons (Char.ofNat n)

/-- The string that pieces make. A pair that is cut off by the end of the text is no lone
surrogate yet. -/
def Quotation.ofPieces (p : Pieces) : Quotation :=
  match p.fault, pairUnits p.pieces with
  | none, .whole chars => .text (String.ofList chars)
  | none, _ => .unpaired
  | some fault, .lone => .broken .malformed fault
  | some fault, _ => .broken fault fault

end BridgeNames.Json
