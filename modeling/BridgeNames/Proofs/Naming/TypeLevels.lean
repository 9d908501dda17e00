import BridgeNames.Supply.Basic
import Mathlib.Order.Bounds.Basic

/-!
# Names of declared types, read off their levels

The name of a type is worked out from the inside: a level that has no name of its own asks for the
name of the type around it. Read from the outside there is no recursion in it. The walk outwards
ends at one level, the first that has a name of its own or the last one of the chain; that level
gives the **base** of the name (`BridgeNames.Declaration.base`), and each level inside it adds an
underscore and its simple name.

| part of the name | what it is read off |
|---|---|
| the base | a name given outright, else the well-known name, else a prefix and the simple name |
| a level inside | its simple name |

Nothing else has a part in the name (`BridgeNames.DeclaredType.AgreesUpTo`): not the package or the
prefix of a nested level, not a binary name that is not well known, and not what is around the level
that ends the walk. The description is in terms of whole texts: a package is split at its dots, and
underscores are put in by a map over the text.
-/

namespace BridgeNames

open Text

/-! ### Simple names and packages as texts -/

/-- A text with an underscore for every separator of nested classes. -/
def underscored (s : String) : String := s.map fun c => if c = '$' then '_' else c

/-- What a package gives a name to open with: its segments in title case, one after the other. -/
def packageText (package : String) : String :=
  String.join ((package.toList.splitOn '.').map fun segment =>
    underscored (titled (String.ofList segment)))

theorem toList_underscored (s : String) : (underscored s).toList = identifier s.toList := by
  rw [underscored, String.toList_map]
  rfl

theorem Declaration.baseName_eq (d : Declaration) : d.baseName = underscored d.simpleName := by
  rw [baseName, ← toList_underscored, String.ofList_toList]

/-- Cutting a text at a separator is splitting it there. -/
theorem Text.Segments.toList_ofText (sep : Char) (text : List Char) :
    (Segments.ofText sep text).toList = text.splitOn sep := by
  induction text with
  | nil => rfl
  | cons c rest ih =>
    rw [List.splitOn_cons_eq_if_modifyHead, ← ih]
    by_cases hc : c = sep
    · subst hc
      simp [Segments.toList]
    · rw [Segments.ofText_cons_of_ne hc]
      simp [Segments.toList, hc]

theorem packageText_eq (package : String) :
    String.ofList (packagePrefix package.toList) = packageText package := by
  have hsegment : ∀ segment : List Char,
      (underscored (titled (String.ofList segment))).toList = identifier (titleCase segment) := by
    intro segment
    rw [toList_underscored, toList_titled, String.toList_ofList]
  rw [← String.toList_inj, packagePrefix, packageText, String.toList_join,
    Segments.toList_ofText, String.toList_ofList, List.flatMap_map]
  exact congrArg (List.flatMap · _) (funext fun segment => (hsegment segment).symm)

/-! ### The base of a name -/

theorem lookup_wellKnownNames_eq_none_iff {name : String} :
    wellKnownNames.lookup name = none ↔ name ∉ wellKnownNames.map Prod.fst := by
  simp only [List.lookup_eq_none_iff, List.mem_map, not_exists, not_and, bne_iff_ne]
  exact forall₂_congr fun p _ => ne_comm

namespace Declaration

/-- **The level has a name of its own**, given outright or as a well-known type. -/
def IsNamed (d : Declaration) : Prop :=
  d.objcName ≠ none ∨ d.binaryName ∈ wellKnownNames.map Prod.fst

/-- **The name that a level gives by itself**, with no regard to what is around it. -/
def base (d : Declaration) : String :=
  match d.objcName, wellKnownNames.lookup d.binaryName, d.objcPrefix with
  | some given, _, _ => given
  | none, some counterpart, _ => counterpart
  | none, none, some given => given ++ underscored d.simpleName
  | none, none, none => (d.packageName.map packageText).getD "" ++ underscored d.simpleName

/-- Two levels agree in all that a base is read off. The binary name counts through the table of
well-known names alone. -/
structure AgreesWith (d d' : Declaration) : Prop where
  objcName : d.objcName = d'.objcName
  counterpart : wellKnownNames.lookup d.binaryName = wellKnownNames.lookup d'.binaryName
  objcPrefix : d.objcPrefix = d'.objcPrefix
  packageName : d.packageName = d'.packageName
  simpleName : d.simpleName = d'.simpleName

variable {d d' : Declaration}

theorem AgreesWith.base_eq (h : d.AgreesWith d') : d.base = d'.base := by
  rw [base, base, h.objcName, h.counterpart, h.objcPrefix, h.packageName, h.simpleName]

theorem fixedName?_eq_none_iff : d.fixedName? = none ↔ ¬d.IsNamed := by
  rw [fixedName?, IsNamed]
  cases d.objcName with
  | some given => simp
  | none => simpa using lookup_wellKnownNames_eq_none_iff

theorem outerName_eq (d : Declaration) :
    d.outerName = (d.objcPrefix.getD ((d.packageName.map packageText).getD "")) ++
      underscored d.simpleName := by
  rw [outerName, namePrefix, baseName_eq]
  cases d.objcPrefix with
  | some given => rfl
  | none =>
    cases d.packageName with
    | some package => simp [packageText_eq]
    | none => rfl

/-- The base is the fixed name, and the name at package level where none is fixed. -/
theorem base_eq (d : Declaration) : d.base = d.fixedName?.getD d.outerName := by
  rw [base, fixedName?, outerName_eq]
  cases d.objcName with
  | some given => rfl
  | none =>
    cases wellKnownNames.lookup d.binaryName with
    | some counterpart => rfl
    | none => cases d.objcPrefix <;> rfl

end Declaration

/-! ### The level that ends the walk -/

namespace DeclaredType

/-- The level with this number, counted outwards from zero, has a name of its own or is the last. -/
def EndsAt (t : DeclaredType) (k : Nat) : Prop :=
  ∃ d, t.chain[k]? = some d ∧ (d.IsNamed ∨ t.chain.length = k + 1)

/-- **What the levels inside another add to its name**, the outermost of them first. -/
def insideText (levels : List Declaration) : String :=
  String.join (levels.reverse.map fun d => "_" ++ underscored d.simpleName)

/-- Two types agree in all that their names are read off if their walks end at this level. -/
structure AgreesUpTo (t u : DeclaredType) (k : Nat) : Prop where
  inside : (t.chain.take k).map Declaration.simpleName = (u.chain.take k).map Declaration.simpleName
  last : ∀ d ∈ t.chain[k]?, ∀ d' ∈ u.chain[k]?, d.AgreesWith d'

variable {t u : DeclaredType} {d : Declaration} {k : Nat}

theorem chain_nested (d : Declaration) (e : DeclaredType) : (nested d e).chain = d :: e.chain := rfl

theorem insideText_cons (d : Declaration) (levels : List Declaration) :
    insideText (d :: levels) = insideText levels ++ ("_" ++ underscored d.simpleName) := by
  simp [insideText, String.join_append]

theorem insideText_congr {levels levels' : List Declaration}
    (h : levels.map Declaration.simpleName = levels'.map Declaration.simpleName) :
    insideText levels = insideText levels' := by
  -- the levels are read through their simple names alone
  have hmap : ∀ levels : List Declaration, insideText levels =
      String.join ((levels.map Declaration.simpleName).reverse.map ("_" ++ underscored ·)) := by
    intro levels
    rw [insideText, ← List.map_reverse, List.map_map]
    rfl
  rw [hmap, hmap, h]

/-- The innermost level ends the walk if it has a name of its own. -/
theorem isLeast_endsAt_zero {outer : List Declaration} (hchain : t.chain = d :: outer)
    (h : d.IsNamed ∨ outer = []) : IsLeast {i | t.EndsAt i} 0 := by
  refine ⟨⟨d, by rw [hchain]; rfl, ?_⟩, fun i _ => Nat.zero_le i⟩
  rcases h with hnamed | rfl
  · exact Or.inl hnamed
  · exact Or.inr (by rw [hchain]; rfl)

/-- From a level without a name of its own the walk goes on around it. -/
theorem isLeast_endsAt_succ {e : DeclaredType} (hnamed : ¬d.IsNamed)
    (h : IsLeast {i | e.EndsAt i} k) : IsLeast {i | (nested d e).EndsAt i} (k + 1) := by
  have hsucc : ∀ i, (nested d e).EndsAt (i + 1) ↔ e.EndsAt i := by
    intro i
    simp only [EndsAt, chain_nested, List.getElem?_cons_succ, List.length_cons,
      Nat.add_right_cancel_iff]
  refine ⟨(hsucc k).mpr h.1, ?_⟩
  rintro (_ | i) hi
  · -- the innermost level is no end: it has no name, and there is a level around it
    obtain ⟨d', hd', hends⟩ := hi
    obtain rfl : d = d' := Option.some.inj hd'
    rcases hends with hd | hlength
    · exact absurd hd hnamed
    · rw [chain_nested, List.length_cons] at hlength
      exact absurd (List.length_eq_zero_iff.mp (Nat.succ.inj hlength)) e.chain_ne_nil
  · exact Nat.succ_le_succ (h.2 ((hsucc i).mp hi))

/-! ### The name -/

/-- The name of a type is the base that its walk ends at and what the levels inside add. -/
theorem name_eq_base_append (t : DeclaredType) :
    ∃ k d, IsLeast {i | t.EndsAt i} k ∧ t.chain[k]? = some d ∧
      t.name = d.base ++ insideText (t.chain.take k) := by
  induction t with
  | topLevel d =>
    refine ⟨0, d, isLeast_endsAt_zero rfl (Or.inr rfl), rfl, ?_⟩
    rw [name, ← Declaration.base_eq]
    exact (String.append_empty).symm
  | nested d e ih =>
    -- a level with a name of its own ends the walk; else the name around it is read off already
    by_cases hnamed : d.IsNamed
    · refine ⟨0, d, isLeast_endsAt_zero rfl (Or.inl hnamed), rfl, ?_⟩
      obtain ⟨fixed, hfixed⟩ := Option.ne_none_iff_exists'.mp
        fun h => Declaration.fixedName?_eq_none_iff.mp h hnamed
      rw [name, Declaration.base_eq, hfixed]
      exact (String.append_empty).symm
    · obtain ⟨k, last, hleast, hlast, hname⟩ := ih
      refine ⟨k + 1, last, isLeast_endsAt_succ hnamed hleast, hlast, ?_⟩
      rw [name, Declaration.fixedName?_eq_none_iff.mpr hnamed, chain_nested, List.take_succ_cons,
        insideText_cons, ← String.append_assoc, ← hname, Option.getD_none,
        Declaration.nameInside, Declaration.baseName_eq, String.append_assoc]

/-- **The name of a declared type, read off its levels.** The walk outwards ends at the first level
that has a name of its own, or at the last one. The name is the base of that level and, for each
level inside it from the outermost to the innermost, an underscore and the simple name. A type
whose walk ends at the same level and that agrees so far in these parts has the same name, whatever
else it is described by. -/
theorem direct_reads_levels {σ : Type} (t : DeclaredType) (s : σ) :
    ∃ k d, IsLeast {i | t.EndsAt i} k ∧ t.chain[k]? = some d ∧
      (direct t s).value = d.base ++ insideText (t.chain.take k) ∧
      ∀ (u : DeclaredType) (s' : σ), IsLeast {i | u.EndsAt i} k → t.AgreesUpTo u k →
        (direct u s').value = (direct t s).value := by
  obtain ⟨k, d, hleast, hlast, hname⟩ := t.name_eq_base_append
  refine ⟨k, d, hleast, hlast, by rw [(direct_apply t s).1, hname], ?_⟩
  intro u s' hleast' hagree
  obtain ⟨k', d', hleast'', hlast', hname'⟩ := u.name_eq_base_append
  -- the end of a walk is one level, so both names are read off the same number of levels
  obtain rfl : k = k' := hleast'.unique hleast''
  rw [(direct_apply u s').1, (direct_apply t s).1, hname', hname,
    (hagree.last d hlast d' hlast').base_eq, insideText_congr hagree.inside]

/-- The prefix of a nested level is not read, and neither is anything around a level with a name of
its own. -/
example :
    let outer : DeclaredType := .topLevel
      { binaryName := "a.B", simpleName := "B", packageName := some "a.c$d" }
    let middle : DeclaredType := .nested
      { binaryName := "a.B$1C", simpleName := "$1C", objcPrefix := some "P" } outer
    let named : DeclaredType := .nested
      { binaryName := "a.D", simpleName := "D", objcName := some "N" } outer
    (direct middle ()).value = "AC_dB__1C" ∧ (direct (named.nestedIn "E") ()).value = "N_E" := by
  decide

end DeclaredType

end BridgeNames
