import BridgeNames.Json.Shape

/-!
# Records

A record is read from an object, by the keys of its fields, or from an array, by their order. It
is filled field by field into a value that starts out with the defaults.

* In an object the fields stand in any order, none of them twice. Unknown members are skipped, or
  refused where the record says so. When the object closes, the first required field that has not
  been given is missed.
* In an array the fields stand in their own order. The array may stop early if only fields with a
  default are left, and has no items beyond the last field.
-/

namespace BridgeNames.Json

/-- A field of a record that is filled into a value. -/
structure Field (δ : Type) where
  key : String
  /-- Whether the field has no default. -/
  required : Bool := false
  /-- Reads the field into the value. -/
  fill : Tree → δ → Except ReadError δ

/-- The shape of a record. -/
structure Record (δ : Type) where
  /-- What messages call it. -/
  wanted : String
  fields : List (Field δ)
  refusesUnknown : Bool := false

namespace Field

variable {α δ : Type}

/-- A field without a default. -/
def mandatory (key : String) (reader : Reader α) (set : α → δ → δ) : Field δ where
  key := key
  required := true
  fill tree value := do return set (← reader tree) value

/-- A field with a default. -/
def defaulted (key : String) (reader : Reader α) (set : α → δ → δ) : Field δ where
  key := key
  fill tree value := do return set (← reader tree) value

end Field

namespace Record

variable {δ : Type}

/-- Reads members one by one; `seen` are the keys of the fields read so far. -/
def readMembers (r : Record δ) :
    List (Quotation × Tree) → (seen : List String) → δ → Except ReadError (List String × δ)
  | [], seen, value => .ok (seen, value)
  | (quotation, tree) :: rest, seen, value => do
    let key ← quotation.read
    match r.fields.find? (·.key == key) with
    | some field =>
      if key ∈ seen then refuse (.duplicateField key)
      else r.readMembers rest (key :: seen) (← field.fill tree value)
    | none =>
      if r.refusesUnknown then refuse (.unknownField key (r.fields.map (·.key)))
      else
        match tree.skipFault? with
        | some fault => fail fault
        | none => r.readMembers rest seen value

/-- What messages call the record where its length matters. -/
def wantedLength (r : Record δ) : String :=
  r.wanted ++ " with " ++ toString r.fields.length ++
    (if r.fields.length = 1 then " element" else " elements")

/-- Reads items in the order of the fields; `index` is the place of the next item. -/
def readItems (r : Record δ) (stop : Option Fault) :
    List (Field δ) → (index : Nat) → List Tree → δ → Except ReadError δ
  | field :: fields, index, item :: items, value => do
    r.readItems stop fields (index + 1) items (← field.fill item value)
  | field :: fields, index, [], value => do
    closed stop
    if field.required then refuse (.wrongLength index r.wantedLength)
    else r.readItems stop fields (index + 1) [] value
  | [], _, [], value => do
    closed stop
    return value
  | [], _, _ :: _, _ => fail .malformed

/-- **Reads the record**, whose own level has been opened already, into a value that starts out as
given. -/
def read (r : Record δ) (start : δ) : Reader δ
  | .array items stop => r.readItems stop r.fields 0 items start
  | .object members stop => do
    let (seen, value) ← r.readMembers members [] start
    closed stop
    match r.fields.find? fun field => field.required && !seen.contains field.key with
    | some field => refuse (.missingField field.key)
    | none => return value
  | .keyless fault => fail fault
  | tree => tree.unexpected r.wanted

end Record

end BridgeNames.Json
