import BridgeNames.Proofs.Naming.MethodCases

/-!
# Computations that a cache cannot tell apart

A cache knows a declared type by its binary name, so two descriptions of one binary name are the
same question to it. Two naming computations are **alike** (`BridgeNames.Naming.Alike`) if they go
the same way whatever the answers are and differ at most in such descriptions.

Uses are alike in this sense if they have the same array layers around leaves of the same binary
name (`BridgeNames.TypeUse.name_alike`), and methods if their parameters have such types and they
agree in all else that is read of them (`BridgeNames.Method.names_alike`). The names of the
parameters are not read, and of the visibility only whether the method is exposed.
-/

namespace BridgeNames

variable {α β : Type}

/-! ### Computations -/

/-- **The two computations go the same way**, asking for types of the same binary names. -/
inductive Naming.Alike : Naming α → Naming α → Prop where
  | done (value : α) : Alike (.done value) (.done value)
  | fail (error : NamingError) : Alike (.fail error) (.fail error)
  | ask {t u : DeclaredType} {next next' : String → Naming α}
      (hkey : t.binaryName = u.binaryName) (hnext : ∀ name, Alike (next name) (next' name)) :
      Alike (.ask t next) (.ask u next')
  | note {x y : Naming α} (event : Event) (h : Alike x y) :
      Alike (.note event x) (.note event y)

namespace Naming

variable {x y : Naming α} {f g : α → Naming β}

theorem Alike.refl (x : Naming α) : x.Alike x := by
  induction x with
  | done value => exact .done value
  | fail error => exact .fail error
  | ask t next ih => exact .ask rfl ih
  | note event x ih => exact .note event ih

/-- **The rule for two parts of a computation.** -/
theorem Alike.bind (h : x.Alike y) (hnext : ∀ a, (f a).Alike (g a)) :
    (x >>= f).Alike (y >>= g) := by
  induction h with
  | done value => exact hnext value
  | fail error => exact .fail error
  | ask hkey _ ih => exact .ask hkey ih
  | note event _ ih => exact .note event ih

/-- Alike computations whose values are put to the same use. -/
theorem Alike.bind_same (h : x.Alike y) (f : α → Naming β) : (x >>= f).Alike (y >>= f) :=
  h.bind fun a => .refl (f a)

theorem Alike.nameOf {t u : DeclaredType} (h : t.binaryName = u.binaryName) :
    (nameOf t).Alike (nameOf u) := .ask h fun name => .done name

end Naming

/-! ### Uses -/

/-- The leaf, with a declared type given by its binary name. -/
def Leaf.outline : Leaf → Primitive ⊕ String
  | primitive kind => .inl kind
  | declared t => .inr t.binaryName

namespace TypeUse

/-- The leaf and the array layers, with a declared type given by its binary name. -/
def outline (u : TypeUse) : (Primitive ⊕ String) × List UInt32 := (u.leaf.outline, u.arrayLayers)

variable {u v : TypeUse}

theorem leafName_alike (h : u.outline = v.outline) (rootAsId : Bool) :
    (u.leafName rootAsId).Alike (v.leafName rootAsId) := by
  obtain ⟨hleaf, hlayers⟩ := Prod.mk.inj h
  rw [leafName, leafName, hlayers]
  cases hu : u.leaf with
  | primitive kind =>
    cases hv : v.leaf with
    | primitive kind' =>
      rw [hu, hv] at hleaf
      obtain rfl : kind = kind' := Sum.inl.inj hleaf
      exact .refl _
    | declared t' =>
      rw [hu, hv] at hleaf
      cases hleaf
  | declared t =>
    cases hv : v.leaf with
    | primitive kind' =>
      rw [hu, hv] at hleaf
      cases hleaf
    | declared t' =>
      rw [hu, hv] at hleaf
      have hkey : t.binaryName = t'.binaryName := Sum.inr.inj hleaf
      -- the object root is told by its binary name, so both are `id` or neither is
      have hroot : t.isObjectRoot = t'.isObjectRoot := by
        rw [DeclaredType.isObjectRoot, DeclaredType.isObjectRoot, hkey]
      simp only [hroot]
      by_cases hid : rootAsId = true ∧ v.arrayLayers = [] ∧ t'.isObjectRoot = true
      · rw [if_pos hid, if_pos hid]
        exact .refl _
      · rw [if_neg hid, if_neg hid]
        exact .nameOf hkey

/-- **Uses with the same layers over leaves of the same binary name are named alike.** -/
theorem name_alike (h : u.outline = v.outline) (rootAsId : Bool) :
    (u.name rootAsId).Alike (v.name rootAsId) := by
  have hlayers : u.layerText = v.layerText := by
    rw [layerText, layerText, (Prod.mk.inj h).2]
  rw [name_eq, name_eq, hlayers]
  exact (leafName_alike h rootAsId).bind_same _

theorem label_alike (h : u.outline = v.outline) : u.label.Alike v.label :=
  (name_alike h true).bind_same _

end TypeUse

/-! ### Methods -/

/-- The types of parameters, with declared types given by their binary names. -/
def outlines (parameters : List Parameter) : List ((Primitive ⊕ String) × List UInt32) :=
  parameters.map fun p => p.type.outline

theorem withLabels_alike {parameters parameters' : List Parameter}
    (h : outlines parameters = outlines parameters') :
    (withLabels parameters).Alike (withLabels parameters') := by
  induction parameters generalizing parameters' with
  | nil =>
    obtain rfl : parameters' = [] := List.map_eq_nil_iff.mp h.symm
    exact .refl _
  | cons p rest ih =>
    obtain ⟨p', rest', rfl, hp, hrest⟩ := List.map_eq_cons_iff.mp h.symm
    exact (TypeUse.label_alike hp.symm).bind fun label => (ih hrest.symm).bind_same _

namespace Method

/-- **The methods agree in what is read of them**, with declared types given by their binary
names. -/
structure Alike (m m' : Method) : Prop where
  name : m.name = m'.name
  types : outlines m.parameters = outlines m'.parameters
  isConstructor : m.isConstructor = m'.isConstructor
  isExposed : m.isExposed = m'.isExposed
  selector : m.selector = m'.selector

variable {m m' : Method} {selector : String}

theorem Alike.length_parameters (h : m.Alike m') :
    m.parameters.length = m'.parameters.length := by
  have hlength := congrArg List.length h.types
  rwa [outlines, outlines, List.length_map, List.length_map] at hlength

theorem derivedLabels_alike (h : m.Alike m') : m.derivedLabels.Alike m'.derivedLabels := by
  have htypes := h.types
  rw [derivedLabels, derivedLabels, h.isConstructor]
  cases m'.isConstructor with
  | false => exact withLabels_alike htypes
  | true =>
    -- only the first label of a constructor is formed differently
    cases hm : m.parameters with
    | nil =>
      rw [hm] at htypes
      obtain hm' : m'.parameters = [] := List.map_eq_nil_iff.mp htypes.symm
      rw [hm']
      exact .refl _
    | cons p rest =>
      rw [hm] at htypes
      obtain ⟨p', rest', hm', hp, hrest⟩ := List.map_eq_cons_iff.mp htypes.symm
      rw [hm']
      exact (TypeUse.label_alike hp.symm).bind fun label =>
        (withLabels_alike hrest.symm).bind_same _

theorem openingLabel_alike (h : m.Alike m') :
    (m.openingLabel selector).Alike (m'.openingLabel selector) := by
  have htypes := h.types
  rw [openingLabel, openingLabel]
  cases hm : m.parameters with
  | nil =>
    rw [hm] at htypes
    obtain hm' : m'.parameters = [] := List.map_eq_nil_iff.mp htypes.symm
    rw [hm']
    exact .refl _
  | cons p rest =>
    rw [hm] at htypes
    obtain ⟨p', rest', hm', hp, -⟩ := List.map_eq_cons_iff.mp htypes.symm
    rw [hm']
    exact TypeUse.label_alike hp.symm

theorem constructorNames_alike (h : m.Alike m') :
    (m.constructorNames selector).Alike (m'.constructorNames selector) := by
  rw [constructorNames, constructorNames]
  cases afterInitWith? (selectorSegments selector).first with
  | some rest => exact .refl _
  | none => exact (openingLabel_alike h).bind_same _

/-- Of a method that is cut after its name nothing but the name is read. -/
theorem selectedNames_congr (h : m.name = m'.name) :
    m.selectedNames selector = m'.selectedNames selector := by
  rw [selectedNames, selectedNames, cutFirst, cutFirst, h]

theorem exposedNames_alike (h : m.Alike m') : m.exposedNames.Alike m'.exposedNames := by
  have hnil : m.parameters = [] ↔ m'.parameters = [] := by
    rw [← List.length_eq_zero_iff, ← List.length_eq_zero_iff, h.length_parameters]
  rw [exposedNames, exposedNames, h.selector, h.isConstructor]
  cases m'.selector with
  | none => exact (derivedLabels_alike h).bind_same _
  | some selector =>
    by_cases hc : m'.isConstructor = true
    · simp only [if_pos hc]
      exact constructorNames_alike h
    · -- without a constructor the types of the parameters are not read at all
      simp only [if_neg hc, hnil, selectedNames_congr h.name]
      exact .refl _

/-- **Methods that agree in what is read of them are named alike.** -/
theorem names_alike (h : m.Alike m') : m.names.Alike m'.names := by
  by_cases hm : m'.isExposed = true
  · rw [names_of_exposed (h.isExposed.trans hm), names_of_exposed hm, h.name, h.selector]
    -- whether a mismatch is noted depends on the number of parameters only
    refine (exposedNames_alike h).bind fun names => ?_
    rw [MethodNames.fits, MethodNames.fits, h.length_parameters]
    exact .refl _
  · have hhidden : m'.isExposed = false := Bool.eq_false_iff.mpr hm
    rw [names_of_not_exposed (h.isExposed.trans hhidden), names_of_not_exposed hhidden]
    exact .refl _

end Method

end BridgeNames
