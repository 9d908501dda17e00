import BridgeNames.Text.UpperTable

/-!
# Title-casing

A text is title-cased by its first character alone, and only where that character has one
upper-case letter; `ß` and the letters outside the basic plane stay as they are. So title-casing
changes no length, and doing it twice is doing it once.
-/

namespace BridgeNames.Text

/-- The one upper-case letter of a character, or the character itself if it has none. -/
def upper (c : Char) : Char :=
  match caseRuns.find? (·.covers c.toNat) with
  | some run => Char.ofNat (c.toNat + run.shift).toNat
  | none => c

/-- A character has no entry in the table and is kept, or a run has its entry and moves it. -/
theorem upper_cases (c : Char) :
    (∀ run ∈ caseRuns, run.covers c.toNat = false) ∧ upper c = c ∨
      ∃ run ∈ caseRuns, run.covers c.toNat = true ∧
        upper c = Char.ofNat (c.toNat + run.shift).toNat := by
  rw [upper]
  cases hfind : caseRuns.find? (·.covers c.toNat) with
  | none =>
    refine Or.inl ⟨fun run hrun => ?_, rfl⟩
    simpa using List.find?_eq_none.mp hfind run hrun
  | some run =>
    have hcovers : run.covers c.toNat = true := by simpa using List.find?_some hfind
    exact Or.inr ⟨run, List.mem_of_find?_eq_some hfind, hcovers, rfl⟩

/-- Puts the first character into upper case. -/
def titleCase : List Char → List Char
  | [] => []
  | c :: rest => upper c :: rest

/-- Title-casing of strings. -/
def titled (s : String) : String := String.ofList (titleCase s.toList)

@[simp] theorem titleCase_nil : titleCase [] = [] := rfl

@[simp] theorem titleCase_cons (c : Char) (rest : List Char) :
    titleCase (c :: rest) = upper c :: rest := rfl

@[simp] theorem length_titleCase (text : List Char) : (titleCase text).length = text.length := by
  cases text <;> rfl

@[simp] theorem toList_titled (s : String) : (titled s).toList = titleCase s.toList := by
  simp [titled]

example : titled "ǆungla" = "Ǆungla" ∧ titled "ßharp" = "ßharp" ∧ titled "" = "" := by decide

end BridgeNames.Text
