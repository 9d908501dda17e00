import BridgeNames.Proofs.Naming.MethodCases

/-!
# A given selector is kept

A selector that is given for a method reaches the caller whole, whatever the names of types are.
Where it goes depends on the method.

* A constructor, and a method without parameters, has the selector for its own name.
* Any other method has it split: its own name, followed by the labels with `:` between them, is
  the selector. Where the first segment was cut does not matter, since a cut loses nothing
  (`BridgeNames.Method.cutFirst_of_long`).

So the selector can be read off the names again: `BridgeNames.Method.spelt` does that from the
names and from what the method is besides (`BridgeNames.Method.spelt_eq`), and two different
selectors never lead to the same names. The labels of a constructor repeat the selector once more,
from the second segment on, and from the first one on where it opens with `initWith`.
-/

namespace BridgeNames

open Text

/-! ### Segments as strings -/

namespace Text.Segments

/-- Strings put together with a separator, as segments are joined. -/
theorem intercalate_ofList (first : List Char) (others : List (List Char)) :
    ":".intercalate (String.ofList first :: others.map String.ofList) =
      String.ofList (join ':' ⟨first, others⟩) := by
  induction others generalizing first with
  | nil => simp [join]
  | cons second others ih =>
    have hcolon : ":" = String.ofList [':'] := rfl
    rw [List.map_cons, String.intercalate_cons_cons, ih, join_cons, hcolon,
      ← String.ofList_append, ← String.ofList_append, List.append_assoc]
    rfl

end Text.Segments

/-- The segments of a selector put together again. -/
theorem intercalate_selectorSegments (selector : String) :
    ":".intercalate (String.ofList (selectorSegments selector).first ::
      (selectorSegments selector).others.map String.ofList) = selector := by
  have hjoin : Segments.join ':' (selectorSegments selector) = selector.toList :=
    Segments.join_ofText ':' selector.toList
  rw [Segments.intercalate_ofList, hjoin, String.ofList_toList]

/-- What stands before the first segment stands before the joined segments. -/
theorem append_intercalate (front back : List Char) (others : List (List Char)) :
    String.ofList front ++ ":".intercalate (String.ofList back :: others.map String.ofList) =
      ":".intercalate (String.ofList (front ++ back) :: others.map String.ofList) := by
  rw [Segments.intercalate_ofList, Segments.intercalate_ofList, ← String.ofList_append]
  simp [Segments.join]

/-- A selector opens with `initWith` exactly when its first segment does, as there is no `:` in
`initWith`. -/
theorem first_selectorSegments_initWith (rest : String) :
    (selectorSegments ("initWith" ++ rest)).first =
      "initWith".toList ++ (selectorSegments rest).first := by
  have hfree : ':' ∉ "initWith".toList := by decide
  rw [selectorSegments, String.toList_append, Segments.ofText_append hfree]
  rfl

namespace Method

variable {σ : Type} {supplier : Supplier σ} {s : σ} {m : Method} {selector : String}
  {d : MethodNames}

/-! ### The names in each case -/

/-- Only an exposed method has names. -/
theorem isExposed_of_names (h : (m.names.run supplier s).value = .ok (some d)) :
    m.isExposed = true := by
  rcases hm : m.isExposed with _ | _
  · rw [names_of_not_exposed hm] at h
    cases h
  · rfl

theorem run_exposedNames_of_names (h : (m.names.run supplier s).value = .ok (some d)) :
    (m.exposedNames.run supplier s).value = .ok d := by
  rw [value_names (isExposed_of_names h)] at h
  cases hnames : (m.exposedNames.run supplier s).value with
  | error e =>
    rw [hnames] at h
    cases h
  | ok names =>
    rw [hnames] at h
    rw [Option.some.inj (Except.ok.inj h)]

theorem name_of_none (h : m.selector = none)
    (hd : (m.exposedNames.run supplier s).value = .ok d) : d.name = none := by
  rw [exposedNames_of_none h] at hd
  obtain ⟨labels, -, hdone⟩ := Naming.run_bind_ok hd
  obtain rfl := Except.ok.inj hdone
  rfl

/-- **The names of a constructor**: the selector, and its segments for labels, but for the first
one, which holds what `initWith` leaves of it. -/
theorem names_of_constructor (h : m.selector = some selector) (hc : m.isConstructor = true)
    (hd : (m.exposedNames.run supplier s).value = .ok d) :
    ∃ label, d = {
        name := some selector
        labels := label :: (selectorSegments selector).others.map String.ofList } ∧
      ∀ rest, (selectorSegments selector).first = "initWith".toList ++ rest →
        label = String.ofList rest := by
  by_cases hopen : "initWith".toList <+: (selectorSegments selector).first
  · obtain ⟨rest, hrest⟩ := hopen
    rw [exposedNames_of_initWith h hc hrest.symm] at hd
    obtain rfl := Except.ok.inj hd
    refine ⟨_, rfl, fun rest' hrest' => ?_⟩
    rw [List.append_cancel_left (hrest.trans hrest')]
  · rw [exposedNames_of_constructor h hc hopen] at hd
    obtain ⟨label, -, hdone⟩ := Naming.run_bind_ok hd
    obtain rfl := Except.ok.inj hdone
    exact ⟨label, rfl, fun rest hrest => absurd ⟨rest, hrest.symm⟩ hopen⟩

theorem names_of_nil (h : m.selector = some selector) (hc : m.isConstructor = false)
    (hp : m.parameters = []) (hd : (m.exposedNames.run supplier s).value = .ok d) :
    d = { name := some selector } := by
  rw [exposedNames_of_nil h hc hp] at hd
  exact (Except.ok.inj hd).symm

/-- A first segment that cannot be cut is an error, so where there are names it takes more than one
unit. -/
theorem one_lt_units_of_parameters (h : m.selector = some selector) (hc : m.isConstructor = false)
    (hp : m.parameters ≠ []) (hd : (m.exposedNames.run supplier s).value = .ok d) :
    1 < units (selectorSegments selector).first := by
  refine Nat.lt_of_not_le fun hshort => ?_
  rw [exposedNames_of_parameters h hc hp, selectedNames, cutFirst_of_short hshort] at hd
  cases hd

/-- **The names of a method with parameters**: the segments, and the first of them cut in two. -/
theorem names_of_parameters (h : m.selector = some selector) (hc : m.isConstructor = false)
    (hp : m.parameters ≠ []) (hd : (m.exposedNames.run supplier s).value = .ok d) :
    ∃ front back, front ++ back = (selectorSegments selector).first ∧ d = {
      name := some (String.ofList front)
      labels := String.ofList back :: (selectorSegments selector).others.map String.ofList } := by
  have hlong := one_lt_units_of_parameters h hc hp hd
  rw [exposedNames_of_parameters h hc hp, selectedNames] at hd
  obtain ⟨⟨front, back⟩, hcut, hdone⟩ := Naming.run_bind_ok hd
  obtain rfl := Except.ok.inj hdone
  refine ⟨front, back, ?_, rfl⟩
  -- the two ways of cutting differ in what is noted, not in how they end
  obtain ⟨front', back', happend, hcut' | hcut'⟩ := cutFirst_of_long m selector hlong
  all_goals
    rw [hcut'] at hcut
    obtain ⟨rfl, rfl⟩ := Prod.mk.inj (Except.ok.inj hcut)
    exact happend

/-! ### Reading the selector off the names -/

/-- **The selector that names of a method stand for.** -/
def spelt (m : Method) (d : MethodNames) : Option String :=
  d.name.map fun name =>
    if m.isConstructor ∨ m.parameters = [] then name else name ++ ":".intercalate d.labels

theorem spelt_of_name {name : String} (hd : d.name = some name)
    (h : m.isConstructor = true ∨ m.parameters = []) : m.spelt d = some name := by
  rw [spelt, hd, Option.map_some, if_pos h]

theorem spelt_of_split {name : String} (hd : d.name = some name) (hc : m.isConstructor = false)
    (hp : m.parameters ≠ []) : m.spelt d = some (name ++ ":".intercalate d.labels) := by
  rw [spelt, hd, Option.map_some, if_neg]
  rintro (hc' | hp')
  · rw [hc] at hc'
    cases hc'
  · exact hp hp'

/-- **Names stand for the selector that was given**, or for none if none was given. -/
theorem spelt_eq (h : (m.names.run supplier s).value = .ok (some d)) : m.spelt d = m.selector := by
  have hd := run_exposedNames_of_names h
  rcases hsel : m.selector with _ | selector
  · rw [spelt, name_of_none hsel hd]
    rfl
  rcases hc : m.isConstructor with _ | _
  · by_cases hp : m.parameters = []
    · obtain rfl := names_of_nil hsel hc hp hd
      exact spelt_of_name rfl (Or.inr hp)
    · obtain ⟨front, back, hfirst, rfl⟩ := names_of_parameters hsel hc hp hd
      rw [spelt_of_split rfl hc hp, append_intercalate, hfirst, intercalate_selectorSegments]
  · obtain ⟨label, rfl, -⟩ := names_of_constructor hsel hc hd
    exact spelt_of_name rfl (Or.inl hc)

/-- **A given selector is kept**, under every supplier of names.

There is a name of the method's own exactly if there is a selector. A constructor, and a method
without parameters, has the whole selector for its name. Any other method has it in its name and
its labels together. The labels of a constructor are the segments from the second one on, and all
that follows `initWith` where the selector opens so. For another selector, or for none in place of
one, the names are other names. -/
theorem names_keep_selector {σ : Type} (supplier : Supplier σ) (s : σ) (m : Method)
    (d : MethodNames) (h : (m.names.run supplier s).value = .ok (some d)) :
    (d.name = none ↔ m.selector = none) ∧
    (∀ selector, m.selector = some selector →
      (m.isConstructor = true ∨ m.parameters = [] → d.name = some selector) ∧
      (m.isConstructor = false → m.parameters ≠ [] →
        ∃ name, d.name = some name ∧ name ++ ":".intercalate d.labels = selector) ∧
      (m.isConstructor = true →
        (∃ label, d.labels = label :: (splitSelector selector).tail) ∧
        ((∃ rest, selector = "initWith" ++ rest) →
          "initWith" ++ ":".intercalate d.labels = selector))) ∧
    ∀ (τ : Type) (other : Supplier τ) (t : τ) (given : Option String) (d' : MethodNames),
      given ≠ m.selector → ({ m with selector := given }.names.run other t).value = .ok (some d') →
        d' ≠ d := by
  have hspelt := spelt_eq h
  refine ⟨?_, fun selector hsel => ⟨fun hwhole => ?_, fun hc hp => ?_, fun hc => ?_⟩,
    fun τ other t given d' hne hd' => ?_⟩
  · rw [← hspelt, spelt, Option.map_eq_none_iff]
  · rw [hsel] at hspelt
    obtain ⟨name, hname, -⟩ := Option.map_eq_some_iff.mp hspelt
    rw [spelt_of_name hname hwhole] at hspelt
    rw [hname, hspelt]
  · rw [hsel] at hspelt
    obtain ⟨name, hname, -⟩ := Option.map_eq_some_iff.mp hspelt
    rw [spelt_of_split hname hc hp] at hspelt
    exact ⟨name, hname, Option.some.inj hspelt⟩
  · obtain ⟨label, rfl, hlabel⟩ := names_of_constructor hsel hc (run_exposedNames_of_names h)
    refine ⟨⟨label, rfl⟩, ?_⟩
    rintro ⟨rest, rfl⟩
    have hfirst := first_selectorSegments_initWith rest
    have hinit : "initWith" = String.ofList "initWith".toList := String.ofList_toList.symm
    rw [hlabel _ hfirst, hinit, append_intercalate, ← hfirst, ← hinit,
      intercalate_selectorSegments]
  · -- the names say which selector they stand for, and the rest of the method is the same
    rintro rfl
    have hspelt' : m.spelt d' = given := spelt_eq hd'
    have hgiven : given = m.selector := hspelt'.symm.trans hspelt
    exact hne hgiven

/-- A selector that shares nothing with the method's name is halved, here before a character of
two units, and is in the two parts together. -/
theorem names_keep_halved_selector :
    ((names {
        name := "run"
        parameters := [⟨"x", .primitive .int⟩]
        selector := some "a😀b:" }).run (direct : Supplier Unit) ()).value =
      .ok (some { name := some "a", labels := ["😀b", ""] }) ∧
    ∃ name, some "a" = some name ∧ name ++ ":".intercalate ["😀b", ""] = "a😀b:" := by
  have h : ((names {
        name := "run"
        parameters := [⟨"x", .primitive .int⟩]
        selector := some "a😀b:" }).run (direct : Supplier Unit) ()).value =
      .ok (some { name := some "a", labels := ["😀b", ""] }) := by rfl
  exact ⟨h, ((names_keep_selector direct () _ _ h).2.1 _ rfl).2.1 rfl (by simp)⟩

end Method

end BridgeNames
