/-!
# Numerals

A JSON numeral is a sign, a whole part, a fraction and an exponent. A whole part has no leading
zero; a fraction and an exponent have one digit at least. `Numeral.read` takes the longest
numeral off the front of a text and says, where there is none, whether the text ended too early
or goes on with the wrong character.
-/

namespace BridgeNames.Json

/-- How a text stops being JSON. -/
inductive Fault where
  /-- The text ends where more is needed. -/
  | truncated
  /-- The text goes on with something that cannot stand there. -/
  | malformed
  deriving DecidableEq, Repr

/-- An exponent as it is written. -/
structure Exponent where
  negative : Bool
  digits : List Char
  deriving DecidableEq, Repr

/-- A number as it is written. -/
structure Numeral where
  negative : Bool := false
  whole : List Char
  /-- The digits after the point, none if there is no point. -/
  fraction : List Char := []
  exponent : Option Exponent := none
  deriving DecidableEq, Repr

/-- One digit or more. -/
def readDigits : List Char → Except Fault (List Char × List Char)
  | [] => .error .truncated
  | c :: rest =>
    if c.isDigit then .ok (c :: rest.takeWhile Char.isDigit, rest.dropWhile Char.isDigit)
    else .error .malformed

/-- Digits without a leading zero. -/
def readWhole : List Char → Except Fault (List Char × List Char)
  | '0' :: rest => if rest.head?.any Char.isDigit then .error .malformed else .ok (['0'], rest)
  | text => readDigits text

/-- The fraction, if there is a point. -/
def readFraction : List Char → Except Fault (List Char × List Char)
  | '.' :: rest => readDigits rest
  | text => .ok ([], text)

/-- The sign and digits of an exponent. -/
def readSigned : List Char → Except Fault (Exponent × List Char)
  | '+' :: rest => do let (ds, rest) ← readDigits rest; return (⟨false, ds⟩, rest)
  | '-' :: rest => do let (ds, rest) ← readDigits rest; return (⟨true, ds⟩, rest)
  | text => do let (ds, rest) ← readDigits text; return (⟨false, ds⟩, rest)

/-- The exponent, if there is an `e`. -/
def readExponent : List Char → Except Fault (Option Exponent × List Char)
  | 'e' :: rest => do let (e, rest) ← readSigned rest; return (some e, rest)
  | 'E' :: rest => do let (e, rest) ← readSigned rest; return (some e, rest)
  | text => .ok (none, text)

namespace Numeral

/-- Takes a numeral off the front of a text; its sign has been taken off already. -/
def read (negative : Bool) (text : List Char) : Except Fault (Numeral × List Char) := do
  let (whole, text) ← readWhole text
  let (fraction, text) ← readFraction text
  let (exponent, text) ← readExponent text
  return ({ negative, whole, fraction, exponent }, text)

/-- The numeral of a natural number. -/
def ofNat (n : Nat) : Numeral := { whole := Nat.toDigits 10 n }

/-- The value of digits in base ten. -/
def digitsValue (digits : List Char) : Nat := Nat.ofDigitChars 10 digits 0

/-- The numeral as text. -/
def toText (n : Numeral) : List Char :=
  (if n.negative then ['-'] else []) ++ n.whole ++
    (if n.fraction = [] then [] else '.' :: n.fraction) ++
    (match n.exponent with
      | none => []
      | some e => 'e' :: (if e.negative then '-' :: e.digits else e.digits))

end Numeral

/-! ### A numeral is taken off the front -/

theorem length_dropWhile_le (p : Char → Bool) (text : List Char) :
    (text.dropWhile p).length ≤ text.length :=
  (text.dropWhile_sublist p).length_le

theorem readDigits_lt {text digits rest : List Char} (h : readDigits text = .ok (digits, rest)) :
    rest.length < text.length := by
  unfold readDigits at h
  split at h
  · cases h
  · split at h
    · cases h
      exact Nat.lt_succ_of_le (length_dropWhile_le ..)
    · cases h

theorem readWhole_lt {text digits rest : List Char} (h : readWhole text = .ok (digits, rest)) :
    rest.length < text.length := by
  unfold readWhole at h
  split at h
  · split at h
    · cases h
    · cases h
      simp
  · exact readDigits_lt h

theorem readFraction_le {text digits rest : List Char}
    (h : readFraction text = .ok (digits, rest)) : rest.length ≤ text.length := by
  unfold readFraction at h
  split at h
  · exact Nat.le_succ_of_le (Nat.le_of_lt (readDigits_lt h))
  · cases h
    exact Nat.le_refl _

theorem readSigned_lt {text rest : List Char} {e : Exponent}
    (h : readSigned text = .ok (e, rest)) : rest.length < text.length := by
  unfold readSigned at h
  split at h <;>
  · simp only [bind, Except.bind, pure, Except.pure] at h
    split at h
    · cases h
    · next heq =>
      cases h
      exact Nat.lt_of_lt_of_le (readDigits_lt heq) (by simp)

theorem readExponent_le {text rest : List Char} {e : Option Exponent}
    (h : readExponent text = .ok (e, rest)) : rest.length ≤ text.length := by
  unfold readExponent at h
  split at h
  iterate 2
    · simp only [bind, Except.bind, pure, Except.pure] at h
      split at h
      · cases h
      · next heq =>
        cases h
        exact Nat.le_succ_of_le (Nat.le_of_lt (readSigned_lt heq))
  · cases h
    exact Nat.le_refl _

/-- A numeral takes one character at least. -/
theorem Numeral.read_lt {negative : Bool} {text rest : List Char} {n : Numeral}
    (h : Numeral.read negative text = .ok (n, rest)) : rest.length < text.length := by
  simp only [Numeral.read, bind, Except.bind, pure, Except.pure] at h
  split at h
  · cases h
  · next hw =>
    split at h
    · cases h
    · next hf =>
      split at h
      · cases h
      · next he =>
        cases h
        have := readWhole_lt hw
        have := readFraction_le hf
        have := readExponent_le he
        omega

end BridgeNames.Json
