/-!
# Lengths in UTF-16 units

Where a text is cut in half, its length is counted in UTF-16 units: a character of the basic
plane takes one, any other takes two. A cut never falls inside a character, so a character that
lies across the wanted place goes to the second part.

`BridgeNames.Text.splitAtUnits` is the cut, as far to the right as the units allow
(`BridgeNames.Text.units_splitAtUnits_le`, `BridgeNames.Text.lt_units_of_splitAtUnits`), and
`BridgeNames.Text.halve?` is the half-way cut, which needs two units at least.
-/

namespace BridgeNames.Text

/-- The UTF-16 units a character takes. -/
def charUnits (c : Char) : Nat := if c.toNat < 0x10000 then 1 else 2

/-- The length of a text in UTF-16 units. -/
def units : List Char → Nat
  | [] => 0
  | c :: text => charUnits c + units text

@[simp] theorem units_nil : units [] = 0 := rfl

@[simp] theorem units_cons (c : Char) (text : List Char) :
    units (c :: text) = charUnits c + units text := rfl

@[simp] theorem units_append (a b : List Char) : units (a ++ b) = units a + units b := by
  induction a with
  | nil => simp
  | cons c a ih => simp [ih, Nat.add_assoc]

theorem charUnits_pos (c : Char) : 0 < charUnits c := by
  unfold charUnits
  split <;> decide

theorem charUnits_le_two (c : Char) : charUnits c ≤ 2 := by
  unfold charUnits
  split <;> decide

/-- Cuts a text after as many whole characters as fit into `n` units. -/
def splitAtUnits : Nat → List Char → List Char × List Char
  | _, [] => ([], [])
  | n, c :: rest =>
    if charUnits c ≤ n then
      let (front, back) := splitAtUnits (n - charUnits c) rest
      (c :: front, back)
    else ([], c :: rest)

/-- Cuts a text half way, measured in units; nothing shorter than two units can be cut. -/
def halve? (text : List Char) : Option (List Char × List Char) :=
  if units text ≤ 1 then none else some (splitAtUnits (units text / 2) text)

/-! ### Facts on the cut -/

/-- A cut loses nothing. -/
theorem splitAtUnits_append (n : Nat) (text : List Char) :
    (splitAtUnits n text).1 ++ (splitAtUnits n text).2 = text := by
  fun_induction splitAtUnits n text <;> simp_all

/-- The first part fits. -/
theorem units_splitAtUnits_le (n : Nat) (text : List Char) :
    units (splitAtUnits n text).1 ≤ n := by
  fun_induction splitAtUnits n text with
  | case1 => exact Nat.zero_le _
  | case2 n c rest hc front back heq ih =>
    simp only [heq] at ih
    rw [units_cons]
    omega
  | case3 => exact Nat.zero_le _

/-- The character after the cut no longer fits. -/
theorem lt_units_of_splitAtUnits {n : Nat} {text rest : List Char} {c : Char}
    (h : (splitAtUnits n text).2 = c :: rest) :
    n < units (splitAtUnits n text).1 + charUnits c := by
  fun_induction splitAtUnits n text with
  | case1 => cases h
  | case2 n d text hd front back heq ih =>
    simp only [heq] at ih h
    have := ih h
    rw [units_cons]
    omega
  | case3 n d text hd =>
    obtain ⟨rfl, rfl⟩ := List.cons.inj h
    simpa using hd

end BridgeNames.Text
