import BridgeNames.Proofs.Naming.Use

/-!
# The cases of a method's names

The names of an exposed method are formed in one of five ways. Which one is decided by whether it
is a constructor, whether a selector is given and how its first segment opens, and whether there
are parameters.

| case | the names |
|---|---|
| no selector | labels from the types of the parameters |
| a constructor, and the selector opens with `initWith` | the segments, `initWith` taken off |
| a constructor and another selector | a label from the first parameter, the other segments |
| no constructor, and no parameters | the selector as the name |
| no constructor, but parameters | the first segment cut in two, the other segments |

Each case has an equation here, and the names of a method are read off these alone. The last case
is the one with an argument in it. A segment that can be cut after what it shares with the
method's name has two characters at least, so the shared part never lets a segment through that is
too short to be halved (`BridgeNames.Method.cutFirst_of_short`).
-/

namespace BridgeNames

open Text

/-! ### The first segment -/

theorem afterInitWith?_append (rest : List Char) :
    afterInitWith? ("initWith".toList ++ rest) = some rest := by
  have hprefix : "initWith".toList.isPrefixOf ("initWith".toList ++ rest) = true :=
    List.isPrefixOf_iff_prefix.mpr (List.prefix_append _ _)
  simp only [afterInitWith?, hprefix, if_true, List.drop_left]

theorem afterInitWith?_of_not_prefix {segment : List Char}
    (h : ¬"initWith".toList <+: segment) : afterInitWith? segment = none := by
  have hprefix : ¬"initWith".toList.isPrefixOf segment = true :=
    fun hp => h (List.isPrefixOf_iff_prefix.mp hp)
  simp only [afterInitWith?, if_neg hprefix]

/-- **A cut after the shared part loses nothing**, and neither part of it is empty. -/
theorem append_of_cutShared? {methodName segment front back : List Char}
    (h : cutShared? methodName segment = some (front, back)) :
    front ++ back = segment ∧ front ≠ [] ∧ back ≠ [] := by
  have happend := List.prefix_iff_eq_append.mp (commonPrefix_prefix_right methodName segment)
  rw [cutShared?] at h
  by_cases hshared : commonPrefix methodName segment ≠ [] ∧
      commonPrefix methodName segment ≠ segment
  · rw [if_pos hshared] at h
    obtain ⟨rfl, rfl⟩ := Prod.mk.inj (Option.some.inj h)
    refine ⟨happend, hshared.1, fun hback => hshared.2 ?_⟩
    rwa [hback, List.append_nil] at happend
  · rw [if_neg hshared] at h
    cases h

theorem units_pos {text : List Char} (h : text ≠ []) : 0 < units text := by
  cases text with
  | nil => exact absurd rfl h
  | cons c text =>
    have hc : 0 < charUnits c := charUnits_pos c
    rw [units_cons]
    omega

namespace Method

variable {m : Method} {selector : String} {segment : List Char}

/-- A segment is cut after what it shares with the method's name, if that is neither nothing nor all
of it. -/
theorem cutFirst_of_shared (m : Method) (selector : String)
    (h : commonPrefix m.name.toList segment ≠ [] ∧ commonPrefix m.name.toList segment ≠ segment) :
    m.cutFirst selector segment = .done (commonPrefix m.name.toList segment,
      segment.drop (commonPrefix m.name.toList segment).length) := by
  rw [cutFirst, cutShared?, if_pos h]
  rfl

/-- **A segment of at most one unit cannot be cut**, whatever it shares with the method's name. -/
theorem cutFirst_of_short (h : units segment ≤ 1) :
    m.cutFirst selector segment = .fail (.segmentTooShort (String.ofList segment)) := by
  have hshared : cutShared? m.name.toList segment = none := by
    rw [Option.eq_none_iff_forall_not_mem]
    rintro ⟨front, back⟩ hcut
    -- both parts of a cut have a unit of their own, which makes two
    obtain ⟨rfl, hfront, hback⟩ := append_of_cutShared? hcut
    have hfront' : 0 < units front := units_pos hfront
    have hback' : 0 < units back := units_pos hback
    rw [units_append] at h
    omega
  have hhalve : halve? segment = none := by rw [halve?, if_pos h]
  rw [cutFirst, hshared, hhalve]

/-- Otherwise it is cut half way, which is noted. -/
theorem cutFirst_of_unshared (m : Method) (selector : String)
    (h : ¬(commonPrefix m.name.toList segment ≠ [] ∧ commonPrefix m.name.toList segment ≠ segment))
    (hlong : 1 < units segment) :
    m.cutFirst selector segment =
      .note (.segmentHalved m.name selector (String.ofList segment))
        (.done (splitAtUnits (units segment / 2) segment)) := by
  have hhalve : halve? segment = some (splitAtUnits (units segment / 2) segment) := by
    rw [halve?, if_neg (by omega)]
  rw [cutFirst, cutShared?, if_neg h, hhalve]
  rfl

/-- **Any other segment is cut in two parts that it consists of**; only a halving is noted. -/
theorem cutFirst_of_long (m : Method) (selector : String) (h : 1 < units segment) :
    ∃ front back, front ++ back = segment ∧
      (m.cutFirst selector segment = .done (front, back) ∨
        m.cutFirst selector segment =
          .note (.segmentHalved m.name selector (String.ofList segment)) (.done (front, back))) := by
  by_cases hshared : commonPrefix m.name.toList segment ≠ [] ∧
      commonPrefix m.name.toList segment ≠ segment
  · have happend := List.prefix_iff_eq_append.mp (commonPrefix_prefix_right m.name.toList segment)
    exact ⟨_, _, happend, Or.inl (cutFirst_of_shared m selector hshared)⟩
  · exact ⟨_, _, splitAtUnits_append (units segment / 2) segment,
      Or.inr (cutFirst_of_unshared m selector hshared h)⟩

/-! ### The five cases -/

theorem exposedNames_of_none (h : m.selector = none) :
    m.exposedNames = do return { labels := ← m.derivedLabels } := by
  rw [exposedNames, h]

/-- A constructor whose selector opens with `initWith` has the rest of the first segment for its
first label. -/
theorem exposedNames_of_initWith (h : m.selector = some selector) (hc : m.isConstructor = true)
    {rest : List Char} (hrest : (selectorSegments selector).first = "initWith".toList ++ rest) :
    m.exposedNames = .done {
      name := some selector
      labels := String.ofList rest :: (selectorSegments selector).others.map String.ofList } := by
  rw [exposedNames, h]
  simp only [hc, if_true, constructorNames, hrest, afterInitWith?_append]
  rfl

/-- Under any other selector a constructor asks its first parameter for the first label. -/
theorem exposedNames_of_constructor (h : m.selector = some selector) (hc : m.isConstructor = true)
    (hopen : ¬"initWith".toList <+: (selectorSegments selector).first) :
    m.exposedNames = do
      let label ← m.openingLabel selector
      return {
        name := some selector
        labels := label :: (selectorSegments selector).others.map String.ofList } := by
  rw [exposedNames, h]
  simp only [hc, if_true, constructorNames, afterInitWith?_of_not_prefix hopen]

theorem exposedNames_of_nil (h : m.selector = some selector) (hc : m.isConstructor = false)
    (hp : m.parameters = []) : m.exposedNames = .done { name := some selector } := by
  rw [exposedNames, h]
  simp only [hc, hp]
  rfl

theorem exposedNames_of_parameters (h : m.selector = some selector)
    (hc : m.isConstructor = false) (hp : m.parameters ≠ []) :
    m.exposedNames = m.selectedNames selector := by
  rw [exposedNames, h]
  simp only [hc, if_neg hp, Bool.false_eq_true, if_false]

/-! ### From the names to the answer -/

/-- A method that is not exposed has no names, whatever else it is. -/
theorem names_of_not_exposed (h : m.isExposed = false) : m.names = .done none := by
  rw [names, h]
  rfl

/-- The names of an exposed method are handed on; only a mismatch with the parameters is noted. -/
theorem names_of_exposed (h : m.isExposed = true) :
    m.names = m.exposedNames >>= fun names =>
      if names.fits m then .done (some names)
      else .note (.labelMismatch m.name m.selector m.parameters.length names.labels.length)
        (.done (some names)) := by
  rw [names, if_pos h]
  refine congrArg (m.exposedNames >>= ·) (funext fun names => ?_)
  cases names.fits m <;> rfl

/-- The answer holds the names, and a mismatch with the parameters does not show in it. -/
theorem value_names (hm : m.isExposed = true) {σ : Type} (supplier : Supplier σ) (s : σ) :
    (m.names.run supplier s).value = (m.exposedNames.run supplier s).value.map some := by
  rw [names_of_exposed hm, Naming.run_bind, Run.bind_apply]
  cases (m.exposedNames.run supplier s).value with
  | error e => rfl
  | ok names =>
    by_cases hfits : names.fits m
    · simp [hfits, Except.map]
    · simp [hfits, Except.map]

end Method

end BridgeNames
