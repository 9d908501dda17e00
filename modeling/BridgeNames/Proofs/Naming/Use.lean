import BridgeNames.Naming.UseName
import BridgeNames.Proofs.Naming.Asking

/-!
# Uses of types, read from the leaf

A use of a type is named by walking through its layers down to the leaf. Read the other way round
this is the name of the leaf, followed by what each array layer adds, the innermost first:
`BridgeNames.TypeUse.name_eq`. Type variables add nothing, and the number of array layers matters
to the leaf in one place only, since the object root is `id` through none of them.

So everything a use does is done at its leaf. It fails when the leaf is `void` and then asks for
nothing (`BridgeNames.TypeUse.name_asksThen_of_isVoid`); otherwise it succeeds, having asked for
the leaf or for nothing (`BridgeNames.TypeUse.name_asksThen`).
-/

namespace BridgeNames

namespace TypeUse

/-- The use is `void` under its layers. -/
def IsVoid (u : TypeUse) : Prop := u.leaf = .primitive .void

instance : DecidablePred IsVoid := fun u => inferInstanceAs (Decidable (u.leaf = _))

/-- **The types that the name of a use takes**: the declared leaf. Nothing is taken for a primitive
leaf, nor for the object root where it is `id`, which is through no array layer. -/
def wanted (u : TypeUse) (rootAsId : Bool) : List DeclaredType :=
  match u.leaf with
  | .primitive _ => []
  | .declared t => if rootAsId ∧ u.arrayLayers = [] ∧ t.isObjectRoot then [] else [t]

/-- The name of the leaf where it stands. -/
def leafName (u : TypeUse) (rootAsId : Bool) : Naming String :=
  match u.leaf with
  | .primitive kind => kind.name
  | .declared t =>
    if rootAsId ∧ u.arrayLayers = [] ∧ t.isObjectRoot then return "id" else Naming.nameOf t

/-- What the array layers add to the name of the leaf, the innermost layer first. -/
def layerText (u : TypeUse) : String := String.join (u.arrayLayers.reverse.map arraySuffix)

/-! ### The name of a use -/

/-- An array layer hides the leaf, which then keeps its full name. -/
theorem leafName_array (element : TypeUse) (dimensions : UInt32) (rootAsId : Bool) :
    (array element dimensions).leafName rootAsId = element.leafName false := by
  cases h : element.leaf <;> simp [leafName, leaf, arrayLayers, h]

theorem layerText_array (element : TypeUse) (dimensions : UInt32) :
    (array element dimensions).layerText = element.layerText ++ arraySuffix dimensions := by
  simp [layerText, arrayLayers, String.join_append]

/-- **The name of a use is the name of its leaf, followed by its array layers.** -/
theorem name_eq (u : TypeUse) (rootAsId : Bool) :
    u.name rootAsId = do return (← u.leafName rootAsId) ++ u.layerText := by
  -- the flag varies along the induction, for below an array layer it is off
  induction u generalizing rootAsId with
  | primitive kind => simp [name, leafName, leaf, layerText, arrayLayers, Naming.bind_done]
  | array element dimensions ih =>
    rw [name, ih, leafName_array, layerText_array, bind_assoc]
    simp only [pure_bind, String.append_assoc]
  | declared t => simp [name, leafName, leaf, layerText, arrayLayers, Naming.bind_done]
  | typeVariable bound ih => exact ih rootAsId

/-! ### What a use asks for -/

theorem leafName_asksThen_of_isVoid {u : TypeUse} (h : u.IsVoid) (rootAsId : Bool) :
    (u.leafName rootAsId).AsksThen [] (· = .error (.unexpectedPrimitive .void)) := by
  rw [IsVoid] at h
  rw [leafName, h]
  exact Naming.asksThen_fail rfl

theorem leafName_asksThen {u : TypeUse} (h : ¬u.IsVoid) (rootAsId : Bool) :
    (u.leafName rootAsId).AsksThen (u.wanted rootAsId) fun r => ∃ name, r = .ok name := by
  rw [IsVoid] at h
  rw [leafName, wanted]
  cases hleaf : u.leaf with
  | primitive kind =>
    cases kind with
    | void => exact absurd hleaf h
    | _ => exact Naming.asksThen_done ⟨_, rfl⟩
  | declared t =>
    by_cases hid : rootAsId ∧ u.arrayLayers = [] ∧ t.isObjectRoot
    · simp only [if_pos hid]
      exact Naming.asksThen_done ⟨_, rfl⟩
    · simp only [if_neg hid]
      exact Naming.asksThen_nameOf t

/-- **A use with the leaf `void` has no name**, and nothing is asked for. -/
theorem name_asksThen_of_isVoid {u : TypeUse} (h : u.IsVoid) (rootAsId : Bool) :
    (u.name rootAsId).AsksThen [] (· = .error (.unexpectedPrimitive .void)) := by
  rw [name_eq]
  exact (leafName_asksThen_of_isVoid h rootAsId).bind_error

/-- **Every other use has a name**, for which at most its leaf is asked for. -/
theorem name_asksThen {u : TypeUse} (h : ¬u.IsVoid) (rootAsId : Bool) :
    (u.name rootAsId).AsksThen (u.wanted rootAsId) fun r => ∃ name, r = .ok name := by
  rw [name_eq]
  exact (leafName_asksThen h rootAsId).bind_done

theorem wanted_of_isVoid {u : TypeUse} (h : u.IsVoid) (rootAsId : Bool) :
    u.wanted rootAsId = [] := by
  rw [IsVoid] at h
  rw [wanted, h]

/-- **A use asks for its declared leaf at most**, whether it has a name or not. -/
theorem name_asks (u : TypeUse) (rootAsId : Bool) :
    (u.name rootAsId).Asks (u.wanted rootAsId) := by
  by_cases h : u.IsVoid
  · rw [wanted_of_isVoid h]
    exact (name_asksThen_of_isVoid h rootAsId).asks
  · exact (name_asksThen h rootAsId).asks

/-! ### Labels -/

theorem label_asksThen_of_isVoid {u : TypeUse} (h : u.IsVoid) :
    u.label.AsksThen [] (· = .error (.unexpectedPrimitive .void)) :=
  (name_asksThen_of_isVoid h true).bind_error

theorem label_asksThen {u : TypeUse} (h : ¬u.IsVoid) :
    u.label.AsksThen (u.wanted true) fun r => ∃ label, r = .ok label :=
  (name_asksThen h true).bind_done

theorem label_asks (u : TypeUse) : u.label.Asks (u.wanted true) := by
  by_cases h : u.IsVoid
  · rw [wanted_of_isVoid h]
    exact (label_asksThen_of_isVoid h).asks
  · exact (label_asksThen h).asks

end TypeUse

end BridgeNames
