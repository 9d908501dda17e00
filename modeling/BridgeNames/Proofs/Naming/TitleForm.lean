import BridgeNames.Proofs.Naming.Separators

/-!
# Title case as a normal form

A text is in title case if it does not open with a letter that has an upper case of its own
(`BridgeNames.Text.IsTitled`). Title-casing brings every text into this form and keeps just the
texts that have it, so doing it twice is doing it once. One character takes the place of one
character, and both are of the basic plane, so no length changes in characters or in units.

The one thing to know is that the table makes no chains: what a letter is moved to is not moved any
further (`BridgeNames.Text.not_hasUpper_upper`). Digraphs such as `ǅ`, which is the title case of
`ǆ` but not its upper case, are no exception, as both are moved to `Ǆ`; nor are the letters whose
upper case stands in another block.

The prefix of a package puts its components in title case one by one. So there are three things
that can be done to a package beforehand or left to the prefix:

| done beforehand | why the prefix is the same |
|---|---|
| the package is cut at a dot | it is cut there anyway |
| every component is put in title case | it is kept then |
| every `$` of a component is replaced | neither `$` nor `_` has an upper case or is one |
-/

namespace BridgeNames

namespace Text

variable {c : Char} {text : List Char} {run : CaseRun} {point : Nat}

/-! ### Sets of code points -/

/-- A set of numbers as one number, whose bits tell what is in the set. Two sets are compared in one
step then, and not number by number. -/
def bitSet (points : List Nat) : Nat := points.foldr (fun point bits => 1 <<< point ||| bits) 0

theorem testBit_bitSet {points : List Nat} :
    (bitSet points).testBit point = true ↔ point ∈ points := by
  induction points with
  | nil => simp [bitSet]
  | cons first others ih =>
    have hcons : bitSet (first :: others) = 1 <<< first ||| bitSet others := rfl
    rw [hcons, Nat.testBit_or, Bool.or_eq_true, ih, Nat.one_shiftLeft, Nat.testBit_two_pow,
      decide_eq_true_iff, eq_comm, List.mem_cons]

/-- **Sets without a bit in common have nothing in common.** -/
theorem notMem_of_bitSet {points others : List Nat} (h : bitSet points &&& bitSet others = 0)
    (hpoint : point ∈ points) : point ∉ others := by
  intro hother
  have hbit : (bitSet points &&& bitSet others).testBit point = true := by
    rw [Nat.testBit_and, testBit_bitSet.mpr hpoint, testBit_bitSet.mpr hother, Bool.and_self]
  rw [h, Nat.zero_testBit] at hbit
  cases hbit

/-! ### Letters and what they are moved to -/

namespace CaseRun

/-- The code points that a run has an entry for. -/
def letters (run : CaseRun) : List Nat :=
  List.range' run.first ((run.last - run.first) / run.step + 1) run.step

/-- The code points that a run moves its letters to. -/
def capitals (run : CaseRun) : List Nat :=
  run.letters.map fun point : Nat => (point + run.shift).toNat

/-- **A run stays within the basic plane**: its letters and what they are moved to are characters of
it, and these are others than the letters. -/
structure StaysInPlane (run : CaseRun) : Prop where
  letters : run.last < 0x10000
  moves : run.shift ≠ 0
  nonneg : 0 ≤ run.first + run.shift
  capitals : run.last + run.shift < 0xd800 ∨
    0xdfff < run.first + run.shift ∧ run.last + run.shift < 0x10000

instance : DecidablePred StaysInPlane := fun run =>
  decidable_of_iff (run.last < 0x10000 ∧ run.shift ≠ 0 ∧ 0 ≤ run.first + run.shift ∧
    (run.last + run.shift < 0xd800 ∨
      0xdfff < run.first + run.shift ∧ run.last + run.shift < 0x10000))
  ⟨fun ⟨hl, hm, hn, hc⟩ => ⟨hl, hm, hn, hc⟩, fun ⟨hl, hm, hn, hc⟩ => ⟨hl, hm, hn, hc⟩⟩

theorem mem_letters_of_covers (h : run.covers point = true) : point ∈ run.letters := by
  obtain ⟨⟨hfirst, hlast⟩, hstep⟩ := covers_iff.mp h
  refine List.mem_range'.mpr ⟨(point - run.first) / run.step, ?_, ?_⟩
  · have hle : point - run.first ≤ run.last - run.first := Nat.sub_le_sub_right hlast _
    exact Nat.lt_succ_of_le (Nat.div_le_div_right hle)
  · rw [Nat.mul_div_cancel' (Nat.dvd_of_mod_eq_zero hstep)]
    omega

theorem mem_capitals_of_covers (h : run.covers point = true) :
    (point + run.shift).toNat ∈ run.capitals :=
  List.mem_map_of_mem (mem_letters_of_covers h)

end CaseRun

/-- **The table makes no chains**: a letter with an entry is not what another one is moved to. -/
theorem notMem_capitals (h : point ∈ caseRuns.flatMap CaseRun.letters) :
    point ∉ caseRuns.flatMap CaseRun.capitals :=
  notMem_of_bitSet (by decide +kernel) h

theorem staysInPlane_of_mem (h : run ∈ caseRuns) : run.StaysInPlane := by
  have hall : ∀ run ∈ caseRuns, run.StaysInPlane := by decide +kernel
  exact hall run h

/-! ### Upper case -/

/-- **The character has an upper case of its own**: there is an entry for it in the table. -/
def HasUpper (c : Char) : Prop := ∃ run ∈ caseRuns, run.covers c.toNat = true

instance : DecidablePred HasUpper := fun c =>
  inferInstanceAs (Decidable (∃ run ∈ caseRuns, run.covers c.toNat = true))

theorem upper_of_not_hasUpper (h : ¬HasUpper c) : upper c = c := by
  rcases upper_cases c with ⟨-, hkept⟩ | ⟨run, hrun, hcovers, -⟩
  · exact hkept
  · exact absurd ⟨run, hrun, hcovers⟩ h

/-- **A letter with an upper case is moved as its run says.** -/
theorem HasUpper.exists_run (h : HasUpper c) :
    ∃ run ∈ caseRuns, run.covers c.toNat = true ∧
      ((upper c).toNat : Int) = c.toNat + run.shift := by
  rcases upper_cases c with ⟨hnone, -⟩ | ⟨run, hrun, hcovers, hmove⟩
  · obtain ⟨run, hrun, hcovers⟩ := h
    rw [hnone run hrun] at hcovers
    cases hcovers
  · refine ⟨run, hrun, hcovers, ?_⟩
    obtain ⟨-, -, hnonneg, hcapitals⟩ := staysInPlane_of_mem hrun
    obtain ⟨⟨hfirst, hlast⟩, -⟩ := CaseRun.covers_iff.mp hcovers
    -- were this no code point, the letter would become the null character
    have hvalid : (c.toNat + run.shift).toNat.isValidChar := by
      rw [Nat.isValidChar]
      omega
    have htoNat : (Char.ofNat (c.toNat + run.shift).toNat).toNat = (c.toNat + run.shift).toNat := by
      rw [Char.ofNat, dif_pos hvalid]
      rfl
    rw [hmove, htoNat]
    omega

theorem HasUpper.upper_ne (h : HasUpper c) : upper c ≠ c := by
  obtain ⟨run, hrun, -, hmove⟩ := h.exists_run
  have hmoves := (staysInPlane_of_mem hrun).moves
  intro hsame
  rw [hsame] at hmove
  omega

theorem upper_eq_self_iff : upper c = c ↔ ¬HasUpper c :=
  ⟨fun hsame h => h.upper_ne hsame, upper_of_not_hasUpper⟩

/-- **What a letter is moved to is not moved any further.** -/
theorem not_hasUpper_upper (c : Char) : ¬HasUpper (upper c) := by
  by_cases h : HasUpper c
  · obtain ⟨run, hrun, hcovers, hmove⟩ := h.exists_run
    have hpoint : (c.toNat + run.shift).toNat = (upper c).toNat := by omega
    have hcapital : (upper c).toNat ∈ caseRuns.flatMap CaseRun.capitals := by
      rw [← hpoint]
      exact List.mem_flatMap.mpr ⟨run, hrun, CaseRun.mem_capitals_of_covers hcovers⟩
    rintro ⟨other, hother, hcovers'⟩
    have hletter : (upper c).toNat ∈ caseRuns.flatMap CaseRun.letters :=
      List.mem_flatMap.mpr ⟨other, hother, CaseRun.mem_letters_of_covers hcovers'⟩
    exact notMem_capitals hletter hcapital
  · rwa [upper_of_not_hasUpper h]

/-- A letter and its upper case are both of the basic plane, so they take one unit each. -/
theorem charUnits_upper (c : Char) : charUnits (upper c) = charUnits c := by
  by_cases h : HasUpper c
  · obtain ⟨run, hrun, hcovers, hmove⟩ := h.exists_run
    obtain ⟨hletters, -, -, hcapitals⟩ := staysInPlane_of_mem hrun
    obtain ⟨⟨-, hlast⟩, -⟩ := CaseRun.covers_iff.mp hcovers
    have hletter : c.toNat < 0x10000 := by omega
    have hcapital : (upper c).toNat < 0x10000 := by omega
    rw [charUnits, charUnits, if_pos hletter, if_pos hcapital]
  · rw [upper_of_not_hasUpper h]

/-! ### Title case -/

/-- **The text is in title case**: it does not open with a letter that has an upper case. -/
def IsTitled (text : List Char) : Prop := ∀ c ∈ text.head?, ¬HasUpper c

theorem isTitled_cons {rest : List Char} : IsTitled (c :: rest) ↔ ¬HasUpper c := by
  simp [IsTitled]

instance : DecidablePred IsTitled
  | [] => isTrue fun _ hc => nomatch hc
  | c :: _ => decidable_of_iff (¬HasUpper c) isTitled_cons.symm

theorem isTitled_titleCase (text : List Char) : IsTitled (titleCase text) := by
  cases text with
  | nil => exact fun _ hc => nomatch hc
  | cons c rest => exact isTitled_cons.mpr (not_hasUpper_upper c)

/-- **Title-casing keeps just the texts that are in title case.** -/
theorem titleCase_eq_self_iff : titleCase text = text ↔ IsTitled text := by
  cases text with
  | nil => exact iff_of_true rfl (isTitled_titleCase [])
  | cons c rest =>
    rw [titleCase_cons, isTitled_cons, ← upper_eq_self_iff, List.cons.injEq, and_iff_left rfl]

theorem titleCase_titleCase (text : List Char) : titleCase (titleCase text) = titleCase text :=
  titleCase_eq_self_iff.mpr (isTitled_titleCase text)

theorem units_titleCase (text : List Char) : units (titleCase text) = units text := by
  cases text with
  | nil => rfl
  | cons c rest => rw [titleCase_cons, units_cons, units_cons, charUnits_upper]

theorem tail_titleCase (text : List Char) : (titleCase text).tail = text.tail := by
  cases text <;> rfl

end Text

open Text

/-- **Title-casing and replacing the separator of nested classes may change places.** -/
theorem identifier_titleCase (text : List Char) :
    identifier (titleCase text) = titleCase (identifier text) := by
  cases text with
  | nil => rfl
  | cons c rest =>
    have hunderscore : upper '_' = '_' := by decide
    have hhead : (if upper c = '$' then '_' else upper c) =
        upper (if c = '$' then '_' else c) := by
      by_cases hdollar : c = '$'
      · rw [if_pos hdollar, if_pos ((upper_eq_dollar_iff c).mpr hdollar), hunderscore]
      · rw [if_neg hdollar, if_neg (mt (upper_eq_dollar_iff c).mp hdollar)]
    exact congrArg (· :: identifier rest) hhead

/-! ### Prefixes of packages -/

/-- The components of a package, each in title case, with dots between. -/
def titledPackage (packageName : List Char) : List Char :=
  ['.'].intercalate ((packageName.splitOn '.').map titleCase)

theorem packagePrefix_eq (packageName : List Char) :
    packagePrefix packageName = (packageName.splitOn '.').flatMap (identifier ∘ titleCase) := by
  rw [packagePrefix, Segments.toList_ofText]

/-- Every `$` of a component may be replaced before the component is put in title case. -/
theorem packagePrefix_eq_flatMap_identifier (packageName : List Char) :
    packagePrefix packageName = (packageName.splitOn '.').flatMap (titleCase ∘ identifier) := by
  simp only [packagePrefix_eq, Function.comp_def, identifier_titleCase]

theorem packagePrefix_append_dot (p q : List Char) :
    packagePrefix (p ++ '.' :: q) = packagePrefix p ++ packagePrefix q := by
  rw [packagePrefix_eq, packagePrefix_eq, packagePrefix_eq, List.splitOn_append_cons_self,
    List.flatMap_append]

theorem upper_eq_dot_iff (c : Char) : upper c = '.' ↔ c = '.' :=
  upper_eq_iff (by decide) (by decide +kernel) c

/-- Title-casing brings no dot into a component. -/
theorem splitOn_titledPackage (packageName : List Char) :
    (titledPackage packageName).splitOn '.' = (packageName.splitOn '.').map titleCase := by
  have hfree : ∀ component ∈ (packageName.splitOn '.').map titleCase, '.' ∉ component := by
    intro component hcomponent
    obtain ⟨segment, hsegment, rfl⟩ := List.mem_map.mp hcomponent
    rw [mem_titleCase_iff upper_eq_dot_iff]
    rw [← Segments.toList_ofText] at hsegment
    exact Segments.not_mem_of_mem_ofText hsegment
  have hne : (packageName.splitOn '.').map titleCase ≠ [] :=
    mt List.map_eq_nil_iff.mp (List.splitOn_ne_nil '.' packageName)
  exact List.splitOn_intercalate '.' hfree hne

theorem packagePrefix_titledPackage (packageName : List Char) :
    packagePrefix (titledPackage packageName) = packagePrefix packageName := by
  have hcomponent : ∀ segment : List Char,
      (identifier ∘ titleCase) (titleCase segment) = (identifier ∘ titleCase) segment :=
    fun segment => congrArg identifier (titleCase_titleCase segment)
  simp only [packagePrefix_eq, splitOn_titledPackage, List.flatMap_map, hcomponent]

/-- **Title-casing is a normal form, and changes no length.**

A text that is title-cased has as many characters and as many units as before, and the same ones
after the first. It is in title case then, which is what title-casing keeps, so title-casing it
again changes nothing. Whether the separators of nested classes are replaced before or after does
not matter.

So it is with packages. In each component the replacement may come first. The prefix of two packages
with a dot between is the prefix of the one and then that of the other. Putting every component in
title case beforehand does not change the prefix. -/
theorem titleCase_normalizes (text p q : List Char) :
    ((titleCase text).length = text.length ∧ units (titleCase text) = units text ∧
      (titleCase text).tail = text.tail) ∧
    (IsTitled (titleCase text) ∧ (titleCase text = text ↔ IsTitled text) ∧
      titleCase (titleCase text) = titleCase text) ∧
    identifier (titleCase text) = titleCase (identifier text) ∧
    packagePrefix p = (p.splitOn '.').flatMap (titleCase ∘ identifier) ∧
    packagePrefix (p ++ '.' :: q) = packagePrefix p ++ packagePrefix q ∧
    packagePrefix (titledPackage p) = packagePrefix p :=
  ⟨⟨length_titleCase text, units_titleCase text, tail_titleCase text⟩,
    ⟨isTitled_titleCase text, titleCase_eq_self_iff, titleCase_titleCase text⟩,
    identifier_titleCase text, packagePrefix_eq_flatMap_identifier p, packagePrefix_append_dot p q,
    packagePrefix_titledPackage p⟩

/-- The digraph `ǅ` is moved on to its upper case, while `ß` and a letter of another plane stay. -/
example : ¬IsTitled "ǅa".toList ∧ IsTitled "ßa".toList ∧ IsTitled "𐐨".toList ∧
    packagePrefix "ǅa..ß$.$b.𐐨".toList = "Ǆaß__b𐐨".toList ∧
    titledPackage "ǅa..ß$.$b".toList = "Ǆa..ß$.$b".toList := by
  decide +kernel

end BridgeNames
