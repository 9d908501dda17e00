import BridgeNames.Proofs.Naming.TypeLevels
import BridgeNames.Proofs.Cache.Lookup

/-!
# Nested types that are described by their binary names alone

A nested type can be described in two ways: level by level, from a type at package level inwards, or
by its binary name, as if it were a type at package level with a `$` or more in its simple name. Both
descriptions have the same binary name and hence one place in the cache, so it had better not matter
which of them comes first. It does not: both get the same name
(`BridgeNames.DeclaredType.nested_and_flattened_name`).

| part of the name | level by level | by the binary name |
|---|---|---|
| prefix | the package, read at the outermost level | what stands before the last dot |
| name at package level | simple name of the outermost level | what stands between the last dot and the names inside |
| each name inside | an underscore and the simple name of a level | a `$`, which becomes an underscore, and the name |

The last dot is the same in both, as there is none in the names inside, and what the two put between
two names comes to the same underscore in the end. A well-known name cannot come in between: there is
no `$` in any of them.
-/

namespace BridgeNames

open Text

/-! ### Dotted names -/

theorem underscored_append (a b : String) : underscored (a ++ b) = underscored a ++ underscored b := by
  rw [← String.toList_inj, toList_underscored, String.toList_append, String.toList_append,
    toList_underscored, toList_underscored, identifier, List.map_append, identifier, identifier]

namespace DeclaredType

variable {q : String} {inside : List Char} {names : List String}

theorem splitLastDot?_of_notMem (h : '.' ∉ inside) : splitLastDot? inside = none := by
  induction inside with
  | nil => rfl
  | cons c inside ih =>
    have hc : c ≠ '.' := fun hc => h (hc ▸ List.mem_cons_self)
    rw [splitLastDot?, ih fun hmem => h (List.mem_cons_of_mem c hmem)]
    exact if_neg hc

/-- Text without a dot that is added at the end goes to the last component. -/
theorem splitLastDot?_append (h : '.' ∉ inside) (text : List Char) :
    splitLastDot? (text ++ inside) =
      (splitLastDot? text).map fun parts => (parts.1, parts.2 ++ inside) := by
  induction text with
  | nil => exact splitLastDot?_of_notMem h
  | cons c text ih =>
    rw [List.cons_append, splitLastDot?, ih, splitLastDot?]
    cases splitLastDot? text with
    | some parts => rfl
    | none => by_cases hc : c = '.' <;> simp [hc]

/-- **Cutting at the last dot cuts off the last component.** -/
theorem splitOn_dot_eq (text : List Char) :
    text.splitOn '.' =
      match splitLastDot? text with
      | some (front, back) => front.splitOn '.' ++ [back]
      | none => [text] := by
  induction text with
  | nil => rfl
  | cons c rest ih =>
    rw [List.splitOn_cons_eq_if_modifyHead, ih, splitLastDot?]
    cases splitLastDot? rest with
    | none => by_cases hc : c = '.' <;> simp [hc]
    | some parts =>
      obtain ⟨front, back⟩ := parts
      -- the front has a first component, and that is where the character goes
      obtain ⟨first, others, hfront⟩ :=
        List.exists_cons_of_ne_nil (List.splitOn_ne_nil '.' front)
      by_cases hc : c = '.' <;>
        simp [hc, List.splitOn_cons_eq_if_modifyHead, hfront]

/-- A dotted name is the binary name of its type. -/
@[simp] theorem binaryName_ofQualifiedName (q : String) : (ofQualifiedName q).binaryName = q := by
  rw [ofQualifiedName]
  split <;> rfl

/-- **The name at package level, read off a dotted name**: its components in title case, but for the
last one, which stands as it is. -/
theorem outerName_ofQualifiedName (q : String) :
    ∃ packages last, q.toList.splitOn '.' = packages ++ [last] ∧
      (ofQualifiedName q).declaration.outerName =
        String.join (packages.map fun component => underscored (titled (String.ofList component))) ++
          underscored (String.ofList last) := by
  have hsplit := splitOn_dot_eq q.toList
  rw [ofQualifiedName]
  cases hdot : splitLastDot? q.toList with
  | none =>
    rw [hdot] at hsplit
    refine ⟨[], q.toList, hsplit, ?_⟩
    rw [Declaration.outerName_eq, String.ofList_toList]
    rfl
  | some parts =>
    obtain ⟨front, back⟩ := parts
    rw [hdot] at hsplit
    refine ⟨front.splitOn '.', back, hsplit, ?_⟩
    rw [Declaration.outerName_eq]
    simp [packageText, declaration]

/-- What is added to the last component of a dotted name is added to the name. -/
theorem outerName_ofQualifiedName_append {inside : String} (h : '.' ∉ inside.toList) (q : String) :
    (ofQualifiedName (q ++ inside)).declaration.outerName =
      (ofQualifiedName q).declaration.outerName ++ underscored inside := by
  rw [ofQualifiedName, ofQualifiedName, String.toList_append, splitLastDot?_append h]
  cases splitLastDot? q.toList with
  | none =>
    simp only [Option.map_none, ofNames, declaration, Declaration.outerName_eq, underscored_append,
      String.append_assoc]
  | some parts =>
    simp only [Option.map_some, declaration, Declaration.outerName_eq, String.ofList_append,
      String.ofList_toList, underscored_append, String.append_assoc]

/-- A name that is not well known is formed from the description. -/
theorem name_ofQualifiedName (h : q ∉ wellKnownNames.map Prod.fst) :
    (ofQualifiedName q).name = (ofQualifiedName q).declaration.outerName := by
  have hname : (ofQualifiedName q).name =
      (wellKnownNames.lookup q).getD (ofQualifiedName q).declaration.outerName := by
    rw [ofQualifiedName]
    split <;> rfl
  rw [hname, lookup_wellKnownNames_eq_none_iff.mpr h]
  rfl

/-! ### Names inside a type -/

/-- What the names of nested types add to a binary name, the outermost of them first. -/
def flattened (names : List String) : String := String.join (names.map ("$" ++ ·))

theorem flattened_cons (s : String) (names : List String) :
    flattened (s :: names) = "$" ++ s ++ flattened names := String.join_cons

/-- There is no `$` in a well-known name. -/
theorem notMem_wellKnownNames (h : '$' ∈ q.toList) : q ∉ wellKnownNames.map Prod.fst := by
  have hfree : ∀ known ∈ wellKnownNames.map Prod.fst, '$' ∉ known.toList := by decide
  exact fun hknown => hfree q hknown h

theorem append_flattened_notMem (h : q ∉ wellKnownNames.map Prod.fst) (names : List String) :
    q ++ flattened names ∉ wellKnownNames.map Prod.fst := by
  cases names with
  | nil => rwa [flattened, List.map_nil, String.join_nil, String.append_empty]
  | cons s names => exact notMem_wellKnownNames (by simp [flattened_cons])

theorem binaryName_foldl_nestedIn (t : DeclaredType) (names : List String) :
    (names.foldl nestedIn t).binaryName = t.binaryName ++ flattened names := by
  induction names generalizing t with
  | nil => exact String.append_empty.symm
  | cons s names ih =>
    have hnested : (t.nestedIn s).binaryName = t.binaryName ++ "$" ++ s := rfl
    rw [List.foldl_cons, ih, hnested, flattened_cons, String.append_assoc, String.append_assoc,
      String.append_assoc]

/-- A type that is nested under a `$` is not well known, so its name is formed from the name of the
type around it. -/
theorem name_nestedIn (t : DeclaredType) (s : String) :
    (t.nestedIn s).name = t.name ++ "_" ++ underscored s := by
  have hdollar : '$' ∈ (t.binaryName ++ "$" ++ s).toList := by simp
  have hfixed : (t.nestedIn s).declaration.fixedName? = none :=
    lookup_wellKnownNames_eq_none_iff.mpr (notMem_wellKnownNames hdollar)
  exact (name_nested hfixed t).trans (by rw [Declaration.nameInside, Declaration.baseName_eq]; rfl)

theorem name_foldl_nestedIn (t : DeclaredType) (names : List String) :
    (names.foldl nestedIn t).name = t.name ++ String.join (names.map fun s => "_" ++ underscored s) := by
  induction names generalizing t with
  | nil => exact String.append_empty.symm
  | cons s names ih =>
    rw [List.foldl_cons, ih, name_nestedIn, List.map_cons, String.join_cons, String.append_assoc,
      String.append_assoc, String.append_assoc]

theorem underscored_flattened (names : List String) :
    underscored (flattened names) = String.join (names.map fun s => "_" ++ underscored s) := by
  induction names with
  | nil =>
    rw [← String.toList_inj, toList_underscored]
    rfl
  | cons s names ih =>
    have hdollar : underscored "$" = "_" := by
      rw [← String.toList_inj, toList_underscored]
      rfl
    rw [flattened_cons, underscored_append, underscored_append, ih, hdollar, List.map_cons,
      String.join_cons]

/-! ### The two descriptions -/

theorem dot_notMem_flattened (h : ∀ s ∈ names, '.' ∉ s.toList) : '.' ∉ (flattened names).toList := by
  induction names with
  | nil => exact List.not_mem_nil
  | cons s names ih =>
    obtain ⟨hs, hnames⟩ := List.forall_mem_cons.mp h
    simp [flattened_cons, hs, ih hnames]

/-- **A nested type that is described by its binary name alone keeps its name.**

Take a type at package level with a dotted name that is not well known, and nest types in it, one in
the other, with no dot in their simple names. Then the type at package level with the binary name of
the innermost of them for its dotted name has this same binary name and the same name. The name is
read off the dotted name that was given, all components but the last in title case, the last one, and
the simple names inside, with underscores between and for every `$`. Whichever of the two descriptions
is looked up first in a cache, the other is found there. -/
theorem nested_and_flattened_name {σ : Type} (s : σ) (q : String) (names : List String)
    (hq : q ∉ wellKnownNames.map Prod.fst) (hnames : ∀ name ∈ names, '.' ∉ name.toList) :
    let nested := names.foldl nestedIn (ofQualifiedName q)
    let flat := ofQualifiedName nested.binaryName
    flat.binaryName = nested.binaryName ∧
    (∃ packages last, q.toList.splitOn '.' = packages ++ [last] ∧
      let name :=
        String.join (packages.map fun component => underscored (titled (String.ofList component))) ++
          underscored (String.ofList last) ++
          String.join (names.map fun name => "_" ++ underscored name)
      (direct nested s).value = name ∧ (direct flat s).value = name) ∧
    ∀ c : NameCache,
      cached flat (cached nested c).store = ⟨(cached nested c).value, (cached nested c).store, []⟩ ∧
      cached nested (cached flat c).store = ⟨(cached flat c).value, (cached flat c).store, []⟩ := by
  intro nested flat
  have hbinary : nested.binaryName = q ++ flattened names := by
    rw [binaryName_foldl_nestedIn, binaryName_ofQualifiedName]
  have hflat : flat.binaryName = nested.binaryName := binaryName_ofQualifiedName _
  obtain ⟨packages, last, hsplit, houter⟩ := outerName_ofQualifiedName q
  refine ⟨hflat, ⟨packages, last, hsplit, ?_, ?_⟩, fun c =>
    ⟨cached_after_cached hflat.symm c, cached_after_cached hflat c⟩⟩
  · rw [(direct_apply nested s).1, name_foldl_nestedIn, name_ofQualifiedName hq, houter]
  · have hknown : nested.binaryName ∉ wellKnownNames.map Prod.fst :=
      hbinary ▸ append_flattened_notMem hq names
    rw [(direct_apply flat s).1, name_ofQualifiedName hknown, hbinary,
      outerName_ofQualifiedName_append (dot_notMem_flattened hnames), houter, underscored_flattened]

/-- A package of which one component is empty, a `$` in the simple name of the outermost level, and a
level inside without a simple name. -/
theorem nested_and_flattened_name_of_empty_parts :
    "a..b$C" ∉ wellKnownNames.map Prod.fst ∧ (∀ name ∈ ["$1", ""], '.' ∉ name.toList) ∧
    (direct (["$1", ""].foldl nestedIn (ofQualifiedName "a..b$C")) ()).value = "Ab_C__1_" ∧
    (direct (ofQualifiedName "a..b$C$$1$") ()).value = "Ab_C__1_" := by
  have hq : "a..b$C" ∉ wellKnownNames.map Prod.fst := by decide
  have hnames : ∀ name ∈ ["$1", ""], '.' ∉ name.toList := by decide
  have hvalue : (direct (ofQualifiedName "a..b$C$$1$") ()).value = "Ab_C__1_" := by decide
  obtain ⟨-, ⟨_, _, -, hnested, hflat⟩, -⟩ :=
    nested_and_flattened_name () "a..b$C" ["$1", ""] hq hnames
  exact ⟨hq, hnames, hnested.trans (hflat.symm.trans hvalue), hvalue⟩

end DeclaredType

end BridgeNames
