import BridgeNames.Text.HiddenTable

/-!
# Quotations

A text that is shown inside a message stands between double quotes. Quotes and backslashes in it
are escaped, the common controls have letters, and any other character without a shape of its
own is written by its number in hexadecimal.
-/

namespace BridgeNames.Text

/-- How one character is written inside a quotation. -/
def quotedChar (c : Char) : List Char :=
  match c with
  | '"' => ['\\', '"']
  | '\\' => ['\\', '\\']
  | '\n' => ['\\', 'n']
  | '\r' => ['\\', 'r']
  | '\t' => ['\\', 't']
  | '\x00' => ['\\', '0']
  | c =>
    if isHidden c then "\\u\x7b".toList ++ Nat.toDigits 16 c.toNat ++ ['\x7d'] else [c]

/-- A text between double quotes. -/
def quoted (s : String) : String :=
  String.ofList ('"' :: s.toList.flatMap quotedChar ++ ['"'])

/-- An absent text is `None`; a present one is quoted inside `Some(…)`. -/
def quotedOption : Option String → String
  | none => "None"
  | some s => "Some(" ++ quoted s ++ ")"

end BridgeNames.Text
