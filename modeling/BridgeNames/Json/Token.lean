import BridgeNames.Json.Quotation

/-!
# Tokens

A text is cut into tokens from left to right. Where a string, a word or a numeral breaks off, the
token says so and is the last one, since nothing after it is ever looked at. Any other character
that starts no token is a mark of its own, whether or not JSON has a use for it.
-/

namespace BridgeNames.Json

/-- A token of JSON, or where a text stops being made of tokens. -/
inductive Token where
  /-- A bracket, comma or colon, or a character that has no place in JSON. -/
  | mark (c : Char)
  | null
  | bool (b : Bool)
  | number (n : Numeral)
  | string (q : Quotation)
  /-- A word that starts as `null`, `true` or `false` do and ends otherwise. -/
  | brokenWord (fault : Fault)
  | brokenNumber (fault : Fault)
  deriving DecidableEq, Repr

/-- The characters that may stand between tokens. -/
def isSpace (c : Char) : Bool := c == ' ' || c == '\t' || c == '\n' || c == '\r'

/-- Takes the letters of a word off the front of a text. -/
def takeWord : List Char → List Char → Except Fault (List Char)
  | [], text => .ok text
  | _ :: _, [] => .error .truncated
  | c :: word, d :: text => if c = d then takeWord word text else .error .malformed

/-- The token of a word whose first letter has been taken off. -/
def wordToken (word : String) (token : Token) (text : List Char) : Token × List Char :=
  match takeWord word.toList text with
  | .ok rest => (token, rest)
  | .error fault => (.brokenWord fault, [])

/-- The token of a numeral whose sign has been taken off. -/
def numberToken (negative : Bool) (text : List Char) : Token × List Char :=
  match Numeral.read negative text with
  | .ok (n, rest) => (.number n, rest)
  | .error fault => (.brokenNumber fault, [])

/-- The token that starts with a character, and the text after it. -/
def nextToken (c : Char) (rest : List Char) : Token × List Char :=
  match c with
  | '"' => (.string (.ofPieces (.read rest)), (Pieces.read rest).rest)
  | 'n' => wordToken "ull" .null rest
  | 't' => wordToken "rue" (.bool true) rest
  | 'f' => wordToken "alse" (.bool false) rest
  | '-' => numberToken true rest
  | c => if c.isDigit then numberToken false (c :: rest) else (.mark c, rest)

/-! ### A token takes a character at least -/

theorem takeWord_le {word text rest : List Char} (h : takeWord word text = .ok rest) :
    rest.length ≤ text.length := by
  fun_induction takeWord word text with
  | case1 text => cases h; exact Nat.le_refl _
  | case2 => cases h
  | case3 word c text ih => exact Nat.le_succ_of_le (ih h)
  | case4 => cases h

theorem wordToken_le (word : String) (token : Token) (text : List Char) :
    (wordToken word token text).2.length ≤ text.length := by
  unfold wordToken
  split
  · next h => exact takeWord_le h
  · exact Nat.zero_le _

theorem numberToken_lt (negative : Bool) {text : List Char} (h : text ≠ []) :
    (numberToken negative text).2.length < text.length := by
  unfold numberToken
  split
  · next h => exact Numeral.read_lt h
  · exact List.length_pos_iff.2 h

theorem numberToken_le (negative : Bool) (text : List Char) :
    (numberToken negative text).2.length ≤ text.length := by
  cases text with
  | nil => exact Nat.le_refl _
  | cons c rest => exact Nat.le_of_lt (numberToken_lt negative (by simp))

theorem nextToken_le (c : Char) (rest : List Char) :
    (nextToken c rest).2.length ≤ rest.length := by
  unfold nextToken
  split
  · exact Pieces.length_rest_le rest
  iterate 3 exact wordToken_le ..
  · exact numberToken_le ..
  · split
    · exact Nat.le_of_lt_succ (numberToken_lt false (by simp))
    · exact Nat.le_refl _

/-- The tokens of a text. -/
def tokens (text : List Char) : List Token :=
  match h : text.dropWhile isSpace with
  | [] => []
  | c :: rest =>
    have : (nextToken c rest).2.length < text.length := by
      have hle := nextToken_le c rest
      have hdrop := length_dropWhile_le isSpace text
      rw [h, List.length_cons] at hdrop
      omega
    (nextToken c rest).1 :: tokens (nextToken c rest).2
termination_by text.length

end BridgeNames.Json
