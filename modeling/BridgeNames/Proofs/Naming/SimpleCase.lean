import BridgeNames.Proofs.Naming.Separators

/-!
# Title-casing and the simple upper case

Unicode has two upper cases of a letter. The simple one is one letter; the full one may be several.
Title-casing goes by the full one and leaves a letter alone where that is several. For most of these
letters this is what the simple one does too, as `ß` has no simple upper case. But `ᾀ` has: it is
`ᾈ`, while the full upper case of `ᾀ` writes the iota below it as a letter of its own.

The letters of this kind are the 27 small ones with an iota below (`BridgeNames.Text.iotaRuns`).
Title-casing is by the simple upper case exactly as long as no text to be title-cased opens with one
of them (`BridgeNames.titleCase_eq_simple_iff`), and so are the two things that are title-cased:
each component of a package, and the name of a type where it is made a label.
-/

namespace BridgeNames

namespace Text

/-! ### The simple upper case -/

/-- The small letters with an iota below, whose simple upper case is one letter of the basic plane
and whose full upper case is two. -/
def iotaRuns : List CaseRun := [
  ⟨0x1f80, 0x1f87, 1, 8⟩, ⟨0x1f90, 0x1f97, 1, 8⟩, ⟨0x1fa0, 0x1fa7, 1, 8⟩, ⟨0x1fb3, 0x1fb3, 1, 9⟩,
  ⟨0x1fc3, 0x1fc3, 1, 9⟩, ⟨0x1ff3, 0x1ff3, 1, 9⟩]

/-- A small letter with an iota below. -/
def HasIota (c : Char) : Prop := ∃ run ∈ iotaRuns, run.covers c.toNat = true

/-- **The simple upper case** within the basic plane: where the full upper case is one letter it is
that letter, and it is one letter for the letters with an iota below as well. -/
def simpleUpper (c : Char) : Char :=
  match (caseRuns ++ iotaRuns).find? (·.covers c.toNat) with
  | some run => Char.ofNat (c.toNat + run.shift).toNat
  | none => c

/-- Puts the first character into its simple upper case. -/
def simpleTitleCase : List Char → List Char
  | [] => []
  | c :: rest => simpleUpper c :: rest

/-- A text that opens with a small letter with an iota below. -/
def OpensWithIota (text : List Char) : Prop := ∃ c ∈ text.head?, HasIota c

variable {c : Char} {text : List Char}

/-- The runs of letters with an iota lie between the others. -/
theorem apart_of_mem_iotaRuns {run other : CaseRun} (hrun : run ∈ iotaRuns)
    (hother : other ∈ caseRuns) : run.last < other.first ∨ other.last < run.first := by
  have hall : ∀ run ∈ iotaRuns, ∀ other ∈ caseRuns,
      run.last < other.first ∨ other.last < run.first := by decide +kernel
  exact hall run hrun other hother

theorem le_of_covers {run : CaseRun} {point : Nat} (h : run.covers point = true) :
    run.first ≤ point ∧ point ≤ run.last :=
  (CaseRun.covers_iff.mp h).1

theorem HasIota.le_toNat (h : HasIota c) : 0x1f80 ≤ c.toNat := by
  obtain ⟨run, hrun, hcovers⟩ := h
  have hfirst : ∀ run ∈ iotaRuns, 0x1f80 ≤ run.first := by decide
  exact Nat.le_trans (hfirst run hrun) (le_of_covers hcovers).1

/-- A letter with an iota below has no upper case in the table. -/
theorem HasIota.find?_caseRuns (h : HasIota c) : caseRuns.find? (·.covers c.toNat) = none := by
  obtain ⟨run, hrun, hcovers⟩ := h
  refine List.find?_eq_none.mpr fun other hother hcovers' => ?_
  have hin := le_of_covers hcovers
  have hin' := le_of_covers hcovers'
  have hapart := apart_of_mem_iotaRuns hrun hother
  omega

theorem HasIota.upper_eq (h : HasIota c) : upper c = c := by
  rw [upper, h.find?_caseRuns]

/-- **A letter with an iota below has a simple upper case**, which is another letter. -/
theorem HasIota.simpleUpper_ne (h : HasIota c) : simpleUpper c ≠ c := by
  intro hsame
  have hnone := h.find?_caseRuns
  obtain ⟨run, hrun, hcovers⟩ := h
  rw [simpleUpper, List.find?_append, hnone, Option.none_or] at hsame
  cases hfind : iotaRuns.find? (·.covers c.toNat) with
  | none => exact absurd hcovers (List.find?_eq_none.mp hfind run hrun)
  | some found =>
    rw [hfind] at hsame
    have hfirst : ∀ run ∈ iotaRuns, 0 < run.first ∧ 0 < run.shift := by decide
    have hpos := hfirst found (List.mem_of_find?_eq_some hfind)
    have hcovers' : found.covers c.toNat = true := by simpa using List.find?_some hfind
    have hin := le_of_covers hcovers'
    have hpoint := eq_toNat_of_ofNat_eq (by omega) hsame
    omega

/-- **Any other character has the same upper case in both ways.** -/
theorem simpleUpper_of_not_hasIota (h : ¬HasIota c) : simpleUpper c = upper c := by
  have hnone : iotaRuns.find? (·.covers c.toNat) = none :=
    List.find?_eq_none.mpr fun run hrun hcovers => h ⟨run, hrun, hcovers⟩
  rw [simpleUpper, List.find?_append, hnone, Option.or_none]
  rfl

theorem upper_eq_simpleUpper_iff : upper c = simpleUpper c ↔ ¬HasIota c := by
  constructor
  · intro hsame h
    rw [h.upper_eq] at hsame
    exact h.simpleUpper_ne hsame.symm
  · exact fun h => (simpleUpper_of_not_hasIota h).symm

/-! ### Title-casing -/

@[simp] theorem length_simpleTitleCase : (simpleTitleCase text).length = text.length := by
  cases text <;> rfl

theorem not_opensWithIota_cons {rest : List Char} :
    ¬OpensWithIota (c :: rest) ↔ ¬HasIota c := by
  simp [OpensWithIota]

theorem titleCase_eq_simpleTitleCase_iff :
    titleCase text = simpleTitleCase text ↔ ¬OpensWithIota text := by
  cases text with
  | nil => simp [simpleTitleCase, OpensWithIota]
  | cons c rest =>
    rw [titleCase_cons, simpleTitleCase, not_opensWithIota_cons, ← upper_eq_simpleUpper_iff,
      List.cons.injEq, and_iff_left rfl]

end Text

open Text

/-! ### Prefixes and labels -/

/-- Two ways to replace the parts of a list by texts of the same lengths give the same text only if
they do so part by part. -/
theorem flatMap_eq_flatMap_iff {α β : Type} {f g : α → List β} {parts : List α}
    (h : ∀ part ∈ parts, (f part).length = (g part).length) :
    parts.flatMap f = parts.flatMap g ↔ ∀ part ∈ parts, f part = g part := by
  induction parts with
  | nil => simp
  | cons part parts ih =>
    obtain ⟨hpart, hparts⟩ := List.forall_mem_cons.mp h
    rw [List.flatMap_cons, List.flatMap_cons, List.forall_mem_cons, ← ih hparts]
    constructor
    · exact fun happend => List.append_inj happend hpart
    · rintro ⟨hfirst, hothers⟩
      rw [hfirst, hothers]

/-- Replacing the separator of nested classes does not make up for a difference in title case. -/
theorem identifier_titleCase_eq_iff {text : List Char} :
    identifier (titleCase text) = identifier (simpleTitleCase text) ↔ ¬OpensWithIota text := by
  rw [← titleCase_eq_simpleTitleCase_iff]
  constructor
  · intro h
    cases text with
    | nil => rfl
    | cons c rest =>
      rw [titleCase_eq_simpleTitleCase_iff, not_opensWithIota_cons]
      intro hiota
      -- the letter is neither the separator nor what replaces it
      have hle := hiota.le_toNat
      have hdollar : c ≠ '$' := by
        rintro rfl
        exact absurd hle (by decide)
      have hunderscore : c ≠ '_' := by
        rintro rfl
        exact absurd hle (by decide)
      have hhead : (if upper c = '$' then '_' else upper c) =
          if simpleUpper c = '$' then '_' else simpleUpper c := (List.cons.inj h).1
      rw [hiota.upper_eq, if_neg hdollar] at hhead
      split at hhead
      · exact hunderscore hhead
      · exact hiota.simpleUpper_ne hhead.symm
  · exact congrArg identifier

/-- **The prefix of a package by the simple upper case.** -/
def simplePackagePrefix (packageName : List Char) : List Char :=
  (Segments.ofText '.' packageName).toList.flatMap (identifier ∘ simpleTitleCase)

/-- **The label of a use by the simple upper case.** -/
def TypeUse.simpleLabel (use : TypeUse) : Naming String := do
  let name ← use.name true
  return String.ofList (simpleTitleCase name.toList)

theorem packagePrefix_eq_simplePackagePrefix_iff {packageName : List Char} :
    packagePrefix packageName = simplePackagePrefix packageName ↔
      ∀ segment ∈ (Segments.ofText '.' packageName).toList, ¬OpensWithIota segment := by
  have hlength : ∀ segment ∈ (Segments.ofText '.' packageName).toList,
      ((identifier ∘ titleCase) segment).length =
        ((identifier ∘ simpleTitleCase) segment).length := by
    intro segment _
    simp only [Function.comp_apply, identifier, List.length_map, length_titleCase,
      length_simpleTitleCase]
  rw [packagePrefix, simplePackagePrefix, flatMap_eq_flatMap_iff hlength]
  exact forall₂_congr fun _ _ => identifier_titleCase_eq_iff

theorem TypeUse.label_eval_eq_simpleLabel_eval_iff {use : TypeUse}
    {names : DeclaredType → String} :
    use.label.eval names = use.simpleLabel.eval names ↔
      ∀ name, (use.name true).eval names = .ok name → ¬OpensWithIota name.toList := by
  rw [label, simpleLabel, Naming.eval_bind, Naming.eval_bind]
  cases (use.name true).eval names with
  | error e =>
    change Except.error e = .error e ↔ _
    exact iff_of_true rfl fun name h => by cases h
  | ok name =>
    have hname : (∀ other, (.ok name : Except NamingError String) = .ok other →
        ¬OpensWithIota other.toList) ↔ ¬OpensWithIota name.toList := by
      simp
    change Except.ok (titled name) = .ok (String.ofList (simpleTitleCase name.toList)) ↔ _
    rw [hname, ← titleCase_eq_simpleTitleCase_iff, Except.ok.injEq, titled, String.ofList_inj]

/-- **Where title-casing is by the simple upper case.** A text is title-cased so exactly if it does
not open with a small letter with an iota below. A package has the prefix that the simple upper case
gives exactly if no component of it opens so, and a use of a type has the label that the simple
upper case gives exactly if its name, should it have one, does not open so. -/
theorem titleCase_eq_simple_iff (text packageName : List Char) (use : TypeUse)
    (names : DeclaredType → String) :
    (titleCase text = simpleTitleCase text ↔ ¬OpensWithIota text) ∧
    (packagePrefix packageName = simplePackagePrefix packageName ↔
      ∀ segment ∈ (Segments.ofText '.' packageName).toList, ¬OpensWithIota segment) ∧
    (use.label.eval names = use.simpleLabel.eval names ↔
      ∀ name, (use.name true).eval names = .ok name → ¬OpensWithIota name.toList) :=
  ⟨titleCase_eq_simpleTitleCase_iff, packagePrefix_eq_simplePackagePrefix_iff,
    TypeUse.label_eval_eq_simpleLabel_eval_iff⟩

/-- A letter with an iota below is kept where the simple upper case is another letter, so
title-casing is not by the simple upper case throughout the basic plane. -/
theorem titleCase_keeps_iota :
    titled "\u1f80b" = "\u1f80b" ∧ simpleTitleCase "\u1f80b".toList = "\u1f88b".toList ∧
    ¬∀ (c : Char) (rest : List Char), c.toNat < 0x10000 →
      titleCase (c :: rest) = simpleUpper c :: rest := by
  refine ⟨by decide, by decide, fun h => ?_⟩
  exact absurd (h '\u1f80' [] (by decide)) (by decide)

end BridgeNames
