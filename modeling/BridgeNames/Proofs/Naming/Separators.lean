import BridgeNames.Proofs.Naming.TypeLevels
import BridgeNames.Proofs.Naming.UseLayers

/-!
# Where a separator in a name comes from

The separator `$` of nested classes is replaced wherever a name is formed, so a name holds one only
if it was given with one (`BridgeNames.TypeUse.dollars_are_given`).

| part of a name | may hold a `$` |
|---|---|
| a name given outright, a prefix given outright | yes, it is used as it is |
| a well-known name, a keyword, `id` | no, these are fixed |
| a simple name, a component of a package | no, it is replaced |
| array layers | no |

Title case comes before the replacement in a package and after all of it in a label. Neither order
lets a `$` in or out, since no other character has it for its upper case and it has no other
(`BridgeNames.Text.upper_eq_dollar_iff`).
-/

namespace BridgeNames

/-! ### Title case -/

namespace Text

/-- A number that is no code point gives the null character, so any other character tells its
number. -/
theorem eq_toNat_of_ofNat_eq {n : Nat} {d : Char} (hd : 0 < d.toNat) (h : Char.ofNat n = d) :
    n = d.toNat := by
  have htoNat := congrArg Char.toNat h
  by_cases hvalid : n.isValidChar
  · rw [Char.ofNat, dif_pos hvalid] at htoNat
    exact htoNat
  · rw [Char.ofNat, dif_neg hvalid] at htoNat
    rw [← htoNat] at hd
    cases hd

/-- **A character that the table neither moves nor moves another to** is the upper case of itself
alone. -/
theorem upper_eq_iff {d : Char} (hd : 0 < d.toNat)
    (h : ∀ run ∈ caseRuns, run.covers d.toNat = false ∧
      run.covers (d.toNat - run.shift).toNat = false) (c : Char) :
    upper c = d ↔ c = d := by
  constructor
  · intro hupper
    rcases upper_cases c with ⟨-, hkept⟩ | ⟨run, hrun, hcovers, hmove⟩
    · exact hkept.symm.trans hupper
    · -- what is moved to `d` stands where the run must not have an entry
      have hpoint : (c.toNat + run.shift).toNat = d.toNat :=
        eq_toNat_of_ofNat_eq hd (hmove.symm.trans hupper)
      have hmoved : (d.toNat - run.shift).toNat = c.toNat := by omega
      have hfree := (h run hrun).2
      rw [hmoved, hcovers] at hfree
      cases hfree
  · rintro rfl
    rcases upper_cases c with ⟨-, hkept⟩ | ⟨run, hrun, hcovers, -⟩
    · exact hkept
    · rw [(h run hrun).1] at hcovers
      cases hcovers

theorem upper_eq_dollar_iff (c : Char) : upper c = '$' ↔ c = '$' :=
  upper_eq_iff (by decide) (by decide +kernel) c

/-- Title-casing brings in no character that is the upper case of itself alone, and takes none
away. -/
theorem mem_titleCase_iff {d : Char} (h : ∀ c, upper c = d ↔ c = d) {text : List Char} :
    d ∈ titleCase text ↔ d ∈ text := by
  cases text with
  | nil => exact Iff.rfl
  | cons c rest => rw [titleCase_cons, List.mem_cons, List.mem_cons, eq_comm, h, eq_comm]

theorem dollar_mem_titleCase {text : List Char} : '$' ∈ titleCase text ↔ '$' ∈ text :=
  mem_titleCase_iff upper_eq_dollar_iff

theorem dollar_mem_titled {s : String} : '$' ∈ (titled s).toList ↔ '$' ∈ s.toList := by
  rw [toList_titled, dollar_mem_titleCase]

end Text

open Text

/-! ### What is replaced -/

theorem dollar_notMem_identifier (text : List Char) : '$' ∉ identifier text := by
  intro hmem
  obtain ⟨c, -, hc⟩ := List.mem_map.mp hmem
  by_cases hdollar : c = '$'
  · rw [if_pos hdollar] at hc
    exact absurd hc (by decide)
  · rw [if_neg hdollar] at hc
    exact hdollar hc

theorem dollar_notMem_underscored (s : String) : '$' ∉ (underscored s).toList := by
  rw [toList_underscored]
  exact dollar_notMem_identifier s.toList

theorem dollar_notMem_packageText (package : String) : '$' ∉ (packageText package).toList := by
  rw [packageText, String.toList_join]
  intro hmem
  obtain ⟨component, hcomponent, hdollar⟩ := List.mem_flatMap.mp hmem
  obtain ⟨segment, -, rfl⟩ := List.mem_map.mp hcomponent
  exact dollar_notMem_underscored _ hdollar

/-- There is no `$` in the counterpart of a well-known type. -/
theorem dollar_notMem_counterpart {binaryName counterpart : String}
    (h : wellKnownNames.lookup binaryName = some counterpart) : '$' ∉ counterpart.toList := by
  have hall : ∀ known ∈ wellKnownNames, '$' ∉ known.2.toList := by decide
  obtain ⟨before, after, hknown, -⟩ := List.lookup_eq_some_iff.mp h
  have hmem : (binaryName, counterpart) ∈ wellKnownNames := by
    rw [hknown]
    exact List.mem_append_right before List.mem_cons_self
  exact hall _ hmem

namespace DeclaredType

theorem dollar_notMem_insideText (levels : List Declaration) :
    '$' ∉ (insideText levels).toList := by
  have hunderscore : '$' ∉ "_".toList := by decide
  rw [insideText, String.toList_join]
  intro hmem
  obtain ⟨text, htext, hdollar⟩ := List.mem_flatMap.mp hmem
  obtain ⟨d, -, rfl⟩ := List.mem_map.mp htext
  rw [String.toList_append] at hdollar
  exact (List.mem_append.mp hdollar).elim hunderscore (dollar_notMem_underscored _)

end DeclaredType

theorem TypeUse.dollar_notMem_layerText (u : TypeUse) : '$' ∉ u.layerText.toList := by
  have hword : '$' ∉ "Array".toList := by decide
  rw [layerText_eq, writtenLayers, String.toList_join]
  intro hmem
  obtain ⟨text, htext, hdollar⟩ := List.mem_flatMap.mp hmem
  obtain ⟨dimensions, -, rfl⟩ := List.mem_map.mp htext
  rw [String.toList_append] at hdollar
  rcases List.mem_append.mp hdollar with hdollar | hdollar
  · exact hword hdollar
  · split at hdollar
    · rw [Nat.toList_repr] at hdollar
      exact absurd (Nat.isDigit_of_mem_toDigits (by decide) (by decide) hdollar) (by decide)
    · exact List.not_mem_nil hdollar

/-! ### Names of declared types -/

namespace Declaration

/-- **The level is given a `$`**: in its name, or else in its prefix where it has no name of its
own. -/
def GivesDollar (d : Declaration) : Prop :=
  (∃ given, d.objcName = some given ∧ '$' ∈ given.toList) ∨
    ¬d.IsNamed ∧ ∃ given, d.objcPrefix = some given ∧ '$' ∈ given.toList

variable {d : Declaration}

/-- **A base holds a `$` exactly if its level is given one.** -/
theorem dollar_mem_base_iff (d : Declaration) : '$' ∈ d.base.toList ↔ d.GivesDollar := by
  have hsimple := dollar_notMem_underscored d.simpleName
  have hfixed : d.fixedName? = none ↔ ¬d.IsNamed := fixedName?_eq_none_iff
  rw [GivesDollar, ← hfixed, fixedName?, base]
  cases d.objcName with
  | some given => simp
  | none =>
    cases hknown : wellKnownNames.lookup d.binaryName with
    | some counterpart => simp [dollar_notMem_counterpart hknown]
    | none =>
      cases d.objcPrefix with
      | some given => simp [hsimple]
      | none =>
        have hpackage : '$' ∉ ((d.packageName.map packageText).getD "").toList := by
          cases d.packageName with
          | some package => exact dollar_notMem_packageText package
          | none => exact List.not_mem_nil
        simp [hsimple, hpackage]

end Declaration

namespace DeclaredType

/-- **A name holds a `$` exactly if the level that ends its walk is given one.** -/
theorem exists_dollar_mem_name_iff (t : DeclaredType) :
    ∃ k d, IsLeast {i | t.EndsAt i} k ∧ t.chain[k]? = some d ∧
      ('$' ∈ t.name.toList ↔ d.GivesDollar) := by
  obtain ⟨k, d, hleast, hlast, hname⟩ := t.name_eq_base_append
  refine ⟨k, d, hleast, hlast, ?_⟩
  rw [hname, String.toList_append, List.mem_append,
    or_iff_left (dollar_notMem_insideText (t.chain.take k)), d.dollar_mem_base_iff]

end DeclaredType

/-! ### Names of uses -/

theorem Primitive.dollar_notMem_keyword (kind : Primitive) : '$' ∉ kind.keyword.toList := by
  cases kind <;> decide

namespace TypeUse

variable {u : TypeUse} {t : DeclaredType} {kind : Primitive}

/-- **The name of a use over a declared type holds a `$` exactly if the name of the type does** and
is there. -/
theorem dollar_mem_text_iff (h : u.leaf = .declared t) (rootAsId : Bool)
    (names : DeclaredType → String) :
    '$' ∈ (u.leafText rootAsId names ++ u.layerText).toList ↔ '$' ∈ (names t).toList ∧
      ¬(rootAsId = true ∧ u.arrayLayers = [] ∧ t.binaryName = "java.lang.Object") := by
  have hid : '$' ∉ "id".toList := by decide
  have htext : u.leafText rootAsId names =
      if rootAsId = true ∧ u.arrayLayers = [] ∧ t.binaryName = "java.lang.Object" then "id"
      else names t := by rw [leafText, h]
  rw [String.toList_append, List.mem_append, or_iff_left u.dollar_notMem_layerText, htext]
  by_cases hroot : rootAsId = true ∧ u.arrayLayers = [] ∧ t.binaryName = "java.lang.Object"
  · rw [if_pos hroot]
    exact iff_of_false hid fun hname => hname.2 hroot
  · rw [if_neg hroot, and_iff_left hroot]

/-- A use over a primitive has no `$` in its name, if it has a name. -/
theorem dollar_notMem_of_written {rootAsId : Bool} {names : DeclaredType → String} {name : String}
    (h : u.leaf = .primitive kind) (hname : u.written rootAsId names = .ok name) :
    '$' ∉ name.toList := by
  by_cases hvoid : u.IsVoid
  · rw [(written_eq_error_iff names).mpr hvoid] at hname
    cases hname
  · have htext : u.leafText rootAsId names = kind.keyword := by rw [leafText, h]
    rw [written_eq_ok hvoid, htext] at hname
    obtain rfl := Except.ok.inj hname
    rw [String.toList_append, List.mem_append, or_iff_left u.dollar_notMem_layerText]
    exact kind.dollar_notMem_keyword

theorem not_isVoid_of_declared (h : u.leaf = .declared t) : ¬u.IsVoid := by
  rw [IsVoid, h]
  exact Leaf.noConfusion

/-- **A `$` in a name was given with it**, where names are worked out anew.

The name of a declared type holds one exactly if the level that ends its walk has a name with a `$`
that is given outright, or has no name of its own and is given a prefix with one. The name of a use
over a declared type holds one exactly if the name of the type does and does not give way to `id`,
and so does its label. A use over a primitive has none in its name, if it has a name, nor in its
label. -/
theorem dollars_are_given {σ : Type} (s : σ) :
    (∀ t : DeclaredType, ∃ k d, IsLeast {i | t.EndsAt i} k ∧ t.chain[k]? = some d ∧
      ('$' ∈ (direct t s).value.toList ↔ d.GivesDollar)) ∧
    (∀ (u : TypeUse) (t : DeclaredType), u.leaf = .declared t →
      (∀ rootAsId, ∃ name, ((u.name rootAsId).run direct s).value = .ok name ∧
        ('$' ∈ name.toList ↔ '$' ∈ (direct t s).value.toList ∧
          ¬(rootAsId = true ∧ u.arrayLayers = [] ∧ t.binaryName = "java.lang.Object"))) ∧
      ∃ label, (u.label.run direct s).value = .ok label ∧
        ('$' ∈ label.toList ↔ '$' ∈ (direct t s).value.toList ∧
          ¬(u.arrayLayers = [] ∧ t.binaryName = "java.lang.Object"))) ∧
    ∀ (u : TypeUse) (kind : Primitive), u.leaf = .primitive kind →
      (∀ rootAsId name, ((u.name rootAsId).run direct s).value = .ok name → '$' ∉ name.toList) ∧
      ∀ label, (u.label.run direct s).value = .ok label → '$' ∉ label.toList := by
  refine ⟨fun t => ?_, fun u t hleaf => ⟨fun rootAsId => ?_, ?_⟩, fun u kind hleaf =>
    ⟨fun rootAsId name hname => ?_, fun label hlabel => ?_⟩⟩
  · rw [(direct_apply t s).1]
    exact t.exists_dollar_mem_name_iff
  · rw [run_name_eq_written, written_eq_ok (not_isVoid_of_declared hleaf)]
    exact ⟨_, rfl, dollar_mem_text_iff hleaf rootAsId _⟩
  · rw [run_label_eq_written, written_eq_ok (not_isVoid_of_declared hleaf)]
    refine ⟨_, rfl, ?_⟩
    rw [dollar_mem_titled, dollar_mem_text_iff hleaf true]
    simp only [true_and]
  · rw [run_name_eq_written] at hname
    exact dollar_notMem_of_written hleaf hname
  · rw [run_label_eq_written] at hlabel
    cases hname : u.written true fun t => (direct t s).value with
    | error e =>
      rw [hname] at hlabel
      cases hlabel
    | ok name =>
      rw [hname] at hlabel
      obtain rfl := Except.ok.inj hlabel
      rw [dollar_mem_titled]
      exact dollar_notMem_of_written hleaf hname

/-- Simple names, packages and binary names are full of `$`, and the name has none until a prefix
brings one in. -/
example :
    let level : Declaration :=
      { binaryName := "$a.$B$1", simpleName := "$B$", packageName := some "$a.b$" }
    (direct (.topLevel level) ()).value = "_aB__B_" ∧
      (direct (.topLevel { level with objcPrefix := some "P$" }) ()).value = "P$_B_" := by
  decide

end TypeUse

end BridgeNames
