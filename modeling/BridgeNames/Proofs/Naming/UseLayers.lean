import BridgeNames.Proofs.Naming.Use

/-!
# Names of uses, written out

What the name of a use looks like to whoever reads it: the name of the leaf, then one `Array` for
each array layer, the innermost first, with the number of dimensions where there are several
(`BridgeNames.TypeUse.written`). It is an error exactly where the leaf is `void`, however deep.

A use is a leaf under a list of layers, so a part of a use is what is left when some of the outer
layers are taken off, and the whole is that part **inside** them (`BridgeNames.TypeUse.inside`).
Two parts that are named alike can be exchanged inside any layers
(`BridgeNames.TypeUse.name_inside_congr`). That a type variable anywhere adds nothing, and that an
array layer of no dimensions anywhere counts as one of one, follow from this.
-/

namespace BridgeNames

/-- An array layer adds `Array`, and its number of dimensions only if there are several. -/
theorem arraySuffix_eq (dimensions : UInt32) :
    arraySuffix dimensions =
      "Array" ++ if 1 < dimensions.toNat then dimensions.toNat.repr else "" := by
  have hlt : dimensions > 1 ↔ 1 < dimensions.toNat := UInt32.lt_iff_toNat_lt
  rw [arraySuffix]
  by_cases h : 1 < dimensions.toNat
  · rw [if_pos (hlt.mpr h), if_pos h]
    rfl
  · rw [if_neg fun hgt => h (hlt.mp hgt), if_neg h]
    rfl

/-! ### Parts of a use -/

/-- A layer of a use. -/
inductive Layer where
  | array (dimensions : UInt32)
  | typeVariable
  deriving DecidableEq, Repr

/-- The use with one more layer around it. -/
def Layer.around : Layer → TypeUse → TypeUse
  | array dimensions, u => .array u dimensions
  | typeVariable, u => .typeVariable u

namespace TypeUse

/-- **The use inside further layers**, the outermost first. -/
def inside (u : TypeUse) (layers : List Layer) : TypeUse := layers.foldr Layer.around u

variable {u v : TypeUse} {rootAsId : Bool}

@[simp] theorem inside_nil (u : TypeUse) : u.inside [] = u := rfl

@[simp] theorem inside_cons (u : TypeUse) (layer : Layer) (layers : List Layer) :
    u.inside (layer :: layers) = layer.around (u.inside layers) := rfl

/-- **Parts that are named alike can be exchanged** inside any layers. -/
theorem name_inside_congr (h : ∀ rootAsId, u.name rootAsId = v.name rootAsId)
    (layers : List Layer) (rootAsId : Bool) :
    (u.inside layers).name rootAsId = (v.inside layers).name rootAsId := by
  -- an array layer switches the flag off for what is in it, so the flag varies
  induction layers generalizing rootAsId with
  | nil => exact h rootAsId
  | cons layer layers ih =>
    cases layer with
    | array dimensions => simp only [inside_cons, Layer.around, name, ih]
    | typeVariable => exact ih rootAsId

theorem arrayLayers_inside_array (u : TypeUse) (dimensions : UInt32) (layers : List Layer) :
    ((array u dimensions).inside layers).arrayLayers ≠ [] := by
  induction layers with
  | nil => exact List.cons_ne_nil _ _
  | cons layer layers ih =>
    cases layer with
    | array dimensions' => exact List.cons_ne_nil _ _
    | typeVariable => exact ih

/-- Where there is an array layer the object root is named in full, as any other type. -/
theorem name_of_arrayLayers (h : u.arrayLayers ≠ []) (rootAsId : Bool) :
    u.name rootAsId = u.name false := by
  have hleaf : u.leafName rootAsId = u.leafName false := by
    rw [leafName, leafName]
    rcases u.leaf with kind | t
    · rfl
    · have hfull : ∀ flag : Bool,
          ¬(flag = true ∧ u.arrayLayers = [] ∧ t.isObjectRoot = true) := by
        rintro flag ⟨-, hlayers, -⟩
        exact h hlayers
      exact (if_neg (hfull rootAsId)).trans (if_neg (hfull false)).symm
  rw [name_eq, name_eq, hleaf]

/-- A type variable is named as its bound is. -/
theorem name_typeVariable (u : TypeUse) (rootAsId : Bool) :
    (typeVariable u).name rootAsId = u.name rootAsId := rfl

/-- An array layer of no dimensions is named as one of one dimension. -/
theorem name_array_zero (u : TypeUse) (rootAsId : Bool) :
    (array u 0).name rootAsId = (array u 1).name rootAsId := rfl

/-! ### The name written out -/

/-- What the array layers are written as, the innermost first. -/
def writtenLayers (u : TypeUse) : String :=
  String.join (u.arrayLayers.reverse.map fun dimensions =>
    "Array" ++ if 1 < dimensions.toNat then dimensions.toNat.repr else "")

/-- **The name of a use, written out** where declared types have the given names. -/
def written (u : TypeUse) (rootAsId : Bool) (names : DeclaredType → String) :
    Except NamingError String :=
  match u.leaf with
  | .primitive .void => .error (.unexpectedPrimitive .void)
  | .primitive kind => .ok (kind.keyword ++ u.writtenLayers)
  | .declared t =>
    if rootAsId = true ∧ u.arrayLayers = [] ∧ t.binaryName = "java.lang.Object" then
      .ok ("id" ++ u.writtenLayers)
    else .ok (names t ++ u.writtenLayers)

theorem layerText_eq (u : TypeUse) : u.layerText = u.writtenLayers := by
  rw [layerText, writtenLayers, funext arraySuffix_eq]

/-- What the leaf is written as, where declared types have the given names. -/
def leafText (u : TypeUse) (rootAsId : Bool) (names : DeclaredType → String) : String :=
  match u.leaf with
  | .primitive kind => kind.keyword
  | .declared t =>
    if rootAsId = true ∧ u.arrayLayers = [] ∧ t.binaryName = "java.lang.Object" then "id"
    else names t

theorem written_eq_ok (h : ¬u.IsVoid) (rootAsId : Bool) (names : DeclaredType → String) :
    u.written rootAsId names = .ok (u.leafText rootAsId names ++ u.layerText) := by
  rw [IsVoid] at h
  rw [written, leafText, layerText_eq]
  cases hleaf : u.leaf with
  | primitive kind =>
    cases kind with
    | void => exact absurd hleaf h
    | _ => rfl
  | declared t =>
    by_cases hid : rootAsId = true ∧ u.arrayLayers = [] ∧ t.binaryName = "java.lang.Object"
    · simp only [if_pos hid]
    · simp only [if_neg hid]

/-- An error is written exactly where the leaf is `void`. -/
theorem written_eq_error_iff (names : DeclaredType → String) :
    u.written rootAsId names = .error (.unexpectedPrimitive .void) ↔
      u.leaf = .primitive .void := by
  rw [written]
  rcases u.leaf with kind | t
  · cases kind <;> simp
  · by_cases hid : rootAsId = true ∧ u.arrayLayers = [] ∧ t.binaryName = "java.lang.Object" <;>
      simp [hid]

theorem isObjectRoot_iff (t : DeclaredType) :
    t.isObjectRoot = true ↔ t.binaryName = "java.lang.Object" := beq_iff_eq

/-- The name of a use comes out as it is written, under every supplier. -/
theorem run_name_eq_written {σ : Type} (supplier : Supplier σ) (s : σ) (u : TypeUse)
    (rootAsId : Bool) :
    ((u.name rootAsId).run supplier s).value =
      u.written rootAsId fun t => (supplier t s).value := by
  rw [name_eq, layerText_eq, leafName, written]
  rcases u.leaf with kind | t
  · cases kind <;> rfl
  · simp only [isObjectRoot_iff]
    by_cases hid : rootAsId = true ∧ u.arrayLayers = [] ∧ t.binaryName = "java.lang.Object"
    · rw [if_pos hid, if_pos hid]
      rfl
    · rw [if_neg hid, if_neg hid]
      rfl

/-- The label comes out as the name that is written at a parameter, in title case. -/
theorem run_label_eq_written {σ : Type} (supplier : Supplier σ) (s : σ) (u : TypeUse) :
    (u.label.run supplier s).value =
      (u.written true fun t => (supplier t s).value).map Text.titled := by
  rw [label, Naming.run_bind, Run.bind_apply, ← run_name_eq_written]
  cases ((u.name true).run supplier s).value <;> rfl

/-- **The name of a use, read off its leaf and its layers**, under every supplier of names.

* It is the written name, with what the supplier answers for the leaf.
* It fails exactly where the leaf is `void`.
* A type variable around any part of a use changes nothing; neither does the choice of how the
  object root is named where there is an array layer anywhere around it; and an array layer of no
  dimensions is one of one dimension. These hold of the whole computation, and so of what is asked
  for as well. -/
theorem name_reads_leaf {σ : Type} (supplier : Supplier σ) (s : σ) (u : TypeUse)
    (rootAsId : Bool) :
    ((u.name rootAsId).run supplier s).value =
        u.written rootAsId (fun t => (supplier t s).value) ∧
      (((u.name rootAsId).run supplier s).value = .error (.unexpectedPrimitive .void) ↔
        u.leaf = .primitive .void) ∧
      ∀ layers : List Layer,
        ((typeVariable u).inside layers).name rootAsId = (u.inside layers).name rootAsId ∧
        (∀ dimensions, ((array u dimensions).inside layers).name rootAsId =
          ((array u dimensions).inside layers).name false) ∧
        ((array u 0).inside layers).name rootAsId = ((array u 1).inside layers).name rootAsId := by
  have hwritten := run_name_eq_written supplier s u rootAsId
  refine ⟨hwritten, ?_, fun layers => ⟨?_, fun dimensions => ?_, ?_⟩⟩
  · rw [hwritten]
    exact written_eq_error_iff _
  · exact name_inside_congr u.name_typeVariable layers rootAsId
  · exact name_of_arrayLayers (arrayLayers_inside_array u dimensions layers) rootAsId
  · exact name_inside_congr u.name_array_zero layers rootAsId

/-- The object root is `id` through a type variable and keeps its name in an array, here of three
dimensions in two layers. -/
example :
    let root := declared (DeclaredType.ofQualifiedName "java.lang.Object")
    (((typeVariable root).name true).run direct ()).value = .ok "id" ∧
      (((array (typeVariable (array root 1)) 2).name true).run direct ()).value =
        .ok "NSObjectArrayArray2" :=
  ⟨rfl, rfl⟩

end TypeUse

end BridgeNames
