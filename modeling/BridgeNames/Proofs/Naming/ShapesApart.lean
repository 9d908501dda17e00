import BridgeNames.Proofs.Naming.MethodCases
import BridgeNames.Proofs.Naming.UseLayers
import Mathlib.Data.List.Forall2

/-!
# Uses that are told apart by their array layers

Overloads may differ in nothing but the array layers of a parameter, and then their labels have to
differ. They do: over one leaf the names of two uses are equal exactly when the dimensions of their
array layers are, from the outside in, and so are the labels
(`BridgeNames.TypeUse.shapes_told_apart`).

What the array layers add to the name of the leaf can be read back, since each of them opens with
the one `A` in it (`BridgeNames.TypeUse.readLayers_layerText`). The text of the leaf is never
searched, so it may well be empty, or end in `Array2` itself; it is the same in both names and is
taken off as a whole. There is one exception: the object root is `id` through no array layer and has
its full name under one. But `id` is shorter than any array layer. Title case has no part in this,
for it touches one character of the leaf and leaves the capital that an array layer opens with.
-/

namespace BridgeNames

open Text

/-! ### Array layers, read back -/

/-- What an array layer adds after its first letter. -/
def layerTail (dimensions : UInt32) : List Char :=
  "rray".toList ++ if 1 < dimensions.toNat then Nat.toDigits 10 dimensions.toNat else []

/-- The number of dimensions that is written in an array layer; where there is none it is one. -/
def readLayer (tail : List Char) : Nat := max 1 (Nat.ofDigitChars 10 (tail.drop 4) 0)

variable {dimensions : UInt32}

theorem toList_arraySuffix (dimensions : UInt32) :
    (arraySuffix dimensions).toList = 'A' :: layerTail dimensions := by
  rw [arraySuffix_eq, layerTail, String.toList_append]
  by_cases h : 1 < dimensions.toNat
  · rw [if_pos h, if_pos h, Nat.toList_repr]
    rfl
  · rw [if_neg h, if_neg h]
    rfl

theorem notMem_layerTail (dimensions : UInt32) : 'A' ∉ layerTail dimensions := by
  have hword : 'A' ∉ "rray".toList := by decide
  have hdigits : 'A' ∉ Nat.toDigits 10 dimensions.toNat := fun hmem =>
    absurd (Nat.isDigit_of_mem_toDigits (by decide) (by decide) hmem) (by decide)
  rw [layerTail, List.mem_append, not_or]
  refine ⟨hword, ?_⟩
  by_cases h : 1 < dimensions.toNat
  · rwa [if_pos h]
  · rw [if_neg h]
    exact List.not_mem_nil

theorem readLayer_layerTail (h : dimensions ≠ 0) :
    readLayer (layerTail dimensions) = dimensions.toNat := by
  have hpos : 0 < dimensions.toNat := by
    refine Nat.pos_of_ne_zero fun hzero => h ?_
    exact UInt32.toNat_inj.mp hzero
  have hdrop : ∀ digits : List Char, ("rray".toList ++ digits).drop 4 = digits := fun _ => rfl
  rw [readLayer, layerTail, hdrop]
  by_cases hmany : 1 < dimensions.toNat
  · rw [if_pos hmany, Nat.ofDigitChars_ten_toDigits]
    omega
  · rw [if_neg hmany, Nat.ofDigitChars_nil]
    omega

namespace TypeUse

variable {u v : TypeUse} {rootAsId : Bool} {names names' : DeclaredType → String}

theorem toList_layerText (u : TypeUse) :
    u.layerText.toList = Segments.join 'A' ⟨[], u.arrayLayers.reverse.map layerTail⟩ := by
  rw [layerText, String.toList_join, List.flatMap_map, Segments.join, List.flatMap_map]
  exact congrArg (List.flatMap · _) (funext toList_arraySuffix)

/-- **The dimensions of array layers, read off their text**, the outermost first. -/
def readLayers (text : String) : List Nat :=
  ((Segments.ofText 'A' text.toList).others.map readLayer).reverse

theorem readLayers_layerText (h : 0 ∉ u.arrayLayers) :
    readLayers u.layerText = u.arrayLayers.map UInt32.toNat := by
  have hfree : ∀ segment ∈
      (Segments.mk [] (u.arrayLayers.reverse.map layerTail)).toList, 'A' ∉ segment := by
    intro segment hsegment
    rcases List.mem_cons.mp hsegment with rfl | hsegment
    · exact List.not_mem_nil
    · obtain ⟨dimensions, -, rfl⟩ := List.mem_map.mp hsegment
      exact notMem_layerTail dimensions
  have hread : ∀ dimensions ∈ u.arrayLayers,
      readLayer (layerTail dimensions) = dimensions.toNat := by
    intro dimensions hmem
    exact readLayer_layerTail fun hzero => h (hzero ▸ hmem)
  rw [readLayers, toList_layerText, Segments.ofText_join hfree, List.map_map, List.map_reverse,
    List.reverse_reverse]
  exact List.map_congr_left hread

/-- Array layers are written alike only if they are alike. -/
theorem layerText_inj (hu : 0 ∉ u.arrayLayers) (hv : 0 ∉ v.arrayLayers) :
    u.layerText = v.layerText ↔ u.arrayLayers = v.arrayLayers := by
  refine ⟨fun htext => ?_, fun hlayers => by rw [layerText, layerText, hlayers]⟩
  have hread : u.arrayLayers.map UInt32.toNat = v.arrayLayers.map UInt32.toNat := by
    rw [← readLayers_layerText hu, ← readLayers_layerText hv, htext]
  exact (List.map_inj_right fun _ _ => UInt32.toNat_inj.mp).mp hread

/-- The text of an array layer is longer than `id`. -/
theorem two_lt_length_layerText (h : u.arrayLayers ≠ []) : 2 < u.layerText.length := by
  obtain ⟨dimensions, rest, hlayers⟩ :=
    List.exists_cons_of_ne_nil (List.reverse_ne_nil_iff.mpr h)
  have hword : "rray".toList.length = 4 := by decide
  rw [← String.length_toList, toList_layerText, hlayers]
  simp only [Segments.join, List.map_cons, List.flatMap_cons, layerTail, List.length_append,
    List.length_cons, hword]
  omega

/-- Array layers are left alone by title case. -/
theorem titled_append_layerText (text : String) (u : TypeUse) :
    titled (text ++ u.layerText) = titled text ++ u.layerText := by
  have hupper : upper 'A' = 'A' := by decide
  have hlayers : titleCase u.layerText.toList = u.layerText.toList := by
    rw [toList_layerText]
    rcases u.arrayLayers.reverse with _ | ⟨dimensions, rest⟩
    · rfl
    · simp only [Segments.join, List.map_cons, List.flatMap_cons, List.nil_append,
        List.cons_append, titleCase_cons, hupper]
  rw [← String.toList_inj, String.toList_append, toList_titled, toList_titled, String.toList_append]
  rcases text.toList with _ | ⟨c, rest⟩
  · exact hlayers
  · rfl

/-! ### The two parts of a name -/

/-- **Two uses are built over one leaf** that has a name, and no array layer of theirs is without
dimensions. -/
structure OverOneLeaf (u v : TypeUse) : Prop where
  leaf : u.leaf = v.leaf
  notVoid : ¬u.IsVoid
  left : 0 ∉ u.arrayLayers
  right : 0 ∉ v.arrayLayers

theorem OverOneLeaf.notVoid_right (h : u.OverOneLeaf v) : ¬v.IsVoid := by
  rw [IsVoid, ← h.leaf]
  exact h.notVoid

/-- One leaf is written in one way, unless it is `id` in the one use and under an array layer in the
other. -/
theorem leafText_cases (hleaf : u.leaf = v.leaf)
    (hnames : ∀ t, u.leaf = .declared t → names t = names' t) (rootAsId : Bool) :
    u.leafText rootAsId names = v.leafText rootAsId names' ∨
      (u.leafText rootAsId names = "id" ∧ u.arrayLayers = [] ∧ v.arrayLayers ≠ []) ∨
      (v.leafText rootAsId names' = "id" ∧ v.arrayLayers = [] ∧ u.arrayLayers ≠ []) := by
  rw [leafText, leafText, ← hleaf]
  cases hu : u.leaf with
  | primitive kind => exact Or.inl rfl
  | declared t =>
    simp only [hnames t hu]
    by_cases hroot : rootAsId = true ∧ t.binaryName = "java.lang.Object"
    · by_cases hlayers : u.arrayLayers = [] <;> by_cases hlayers' : v.arrayLayers = [] <;>
        simp [hroot, hlayers, hlayers']
    · have hfull : ∀ w : TypeUse,
          ¬(rootAsId = true ∧ w.arrayLayers = [] ∧ t.binaryName = "java.lang.Object") :=
        fun w h => hroot ⟨h.1, h.2.2⟩
      exact Or.inl ((if_neg (hfull u)).trans (if_neg (hfull v)).symm)

/-- **Names over one leaf are equal exactly if the array layers are**, also after a change that
leaves array layers alone and `id` as short as it is. -/
theorem shape_text_eq_iff (shape : String → String) (h : u.OverOneLeaf v)
    (hnames : ∀ t, u.leaf = .declared t → names t = names' t)
    (hshape : ∀ (text : String) (w : TypeUse),
      shape (text ++ w.layerText) = shape text ++ w.layerText)
    (hid : (shape "id").length = 2) :
    shape (u.leafText rootAsId names ++ u.layerText) =
        shape (v.leafText rootAsId names' ++ v.layerText) ↔
      u.arrayLayers = v.arrayLayers := by
  have hcases := leafText_cases h.leaf hnames rootAsId
  -- `id` alone is too short to be any text with an array layer behind it
  have hshort : ∀ {w w' : TypeUse} (text : String), w.arrayLayers = [] → w'.arrayLayers ≠ [] →
      shape "id" ++ w.layerText ≠ shape text ++ w'.layerText := by
    intro w w' text hnil hlayers heq
    have hlong := two_lt_length_layerText hlayers
    have hempty : w.layerText = "" := by rw [layerText, hnil]; rfl
    have hlength := congrArg String.length heq
    rw [String.length_append, String.length_append, hid, hempty, String.length_empty] at hlength
    omega
  rw [hshape, hshape]
  constructor
  · intro htext
    obtain hsame | ⟨hu, hnil, hlayers⟩ | ⟨hv, hnil, hlayers⟩ := hcases
    · rw [hsame, String.append_right_inj] at htext
      exact (layerText_inj h.left h.right).mp htext
    · rw [hu] at htext
      exact absurd htext (hshort _ hnil hlayers)
    · rw [hv] at htext
      exact absurd htext.symm (hshort _ hnil hlayers)
  · intro hlayers
    obtain hsame | ⟨-, hnil, hne⟩ | ⟨-, hnil, hne⟩ := hcases
    · rw [hsame, (layerText_inj h.left h.right).mpr hlayers]
    · exact absurd (hlayers.symm.trans hnil) hne
    · exact absurd (hlayers.trans hnil) hne

/-- The label of a use where declared types have the given names. -/
theorem label_eval (h : ¬u.IsVoid) (names : DeclaredType → String) :
    u.label.eval names = .ok (titled (u.leafText true names ++ u.layerText)) := by
  rw [← Naming.value_run_recording names u.label [], run_label_eq_written, written_eq_ok h]
  rfl

end TypeUse

/-! ### Overloads -/

/-- An evaluation goes on after a value. -/
theorem Naming.eval_bind_ok {α β : Type} {names : DeclaredType → String} {x : Naming α} {a : α}
    (h : x.eval names = .ok a) (f : α → Naming β) : (x >>= f).eval names = (f a).eval names := by
  rw [eval_bind, h]
  rfl

variable {names : DeclaredType → String}

/-- The label of a parameter, where declared types have the given names. -/
def Parameter.labelText (names : DeclaredType → String) (p : Parameter) : String :=
  titled (p.type.leafText true names ++ p.type.layerText)

section Parameters

variable {parameters parameters' : List Parameter}

theorem withLabels_eval (h : ∀ p ∈ parameters, ¬p.type.IsVoid) :
    (withLabels parameters).eval names =
      .ok (parameters.map fun p => "with" ++ p.labelText names) := by
  induction parameters with
  | nil => rfl
  | cons p rest ih =>
    obtain ⟨hp, hrest⟩ := List.forall_mem_cons.mp h
    rw [withLabels, Naming.eval_bind_ok (TypeUse.label_eval hp names),
      Naming.eval_bind_ok (ih hrest)]
    rfl

/-- **Two lists of parameters are built over the same leaves**, one by one. -/
def OverSameLeaves : List Parameter → List Parameter → Prop :=
  List.Forall₂ fun p q => p.type.OverOneLeaf q.type

theorem OverSameLeaves.notVoid (h : OverSameLeaves parameters parameters') :
    (∀ p ∈ parameters, ¬p.type.IsVoid) ∧ ∀ p ∈ parameters', ¬p.type.IsVoid := by
  induction h with
  | nil => simp
  | cons hp _ ih =>
    exact ⟨List.forall_mem_cons.mpr ⟨hp.notVoid, ih.1⟩,
      List.forall_mem_cons.mpr ⟨hp.notVoid_right, ih.2⟩⟩

theorem Parameter.labelText_eq_iff {p q : Parameter} (h : p.type.OverOneLeaf q.type) :
    p.labelText names = q.labelText names ↔ p.type.arrayLayers = q.type.arrayLayers :=
  TypeUse.shape_text_eq_iff titled h (fun _ _ => rfl) TypeUse.titled_append_layerText (by decide)

/-- Parameters over the same leaves have the same labels exactly if they have the same array
layers. -/
theorem map_labelText_eq_iff (h : OverSameLeaves parameters parameters') :
    (parameters.map fun p => "with" ++ p.labelText names) =
        (parameters'.map fun p => "with" ++ p.labelText names) ↔
      parameters.map (·.type.arrayLayers) = parameters'.map (·.type.arrayLayers) := by
  induction h with
  | nil => exact iff_of_true rfl rfl
  | cons hp _ ih =>
    simp only [List.map_cons, List.cons.injEq, String.append_right_inj,
      Parameter.labelText_eq_iff hp, ih]

end Parameters

namespace Method

/-- **Overloads that differ at most in the array layers of their parameters**, and are named after
these. -/
structure Overloads (m m' : Method) : Prop where
  parameters : OverSameLeaves m.parameters m'.parameters
  isConstructor : m.isConstructor = m'.isConstructor
  selector : m.selector = none
  selector' : m'.selector = none
  isExposed : m.isExposed = true
  isExposed' : m'.isExposed = true

variable {m m' : Method}

/-- The labels of a method that is named after its parameters. Only the first one of a constructor
has nothing before it. -/
def labelTexts (m : Method) (names : DeclaredType → String) : List String :=
  match m.parameters with
  | [] => []
  | first :: rest =>
    ((if m.isConstructor then "" else "with") ++ first.labelText names) ::
      rest.map fun p => "with" ++ p.labelText names

theorem derivedLabels_eval (h : ∀ p ∈ m.parameters, ¬p.type.IsVoid) :
    m.derivedLabels.eval names = .ok (m.labelTexts names) := by
  rw [derivedLabels, labelTexts]
  cases hparams : m.parameters with
  | nil => cases m.isConstructor <;> rfl
  | cons first rest =>
    rw [hparams] at h
    cases m.isConstructor with
    | false => exact withLabels_eval h
    | true =>
      obtain ⟨hfirst, hrest⟩ := List.forall_mem_cons.mp h
      rw [Naming.eval_bind_ok (TypeUse.label_eval hfirst names),
        Naming.eval_bind_ok (withLabels_eval hrest)]
      simp only [if_true, String.empty_append]
      rfl

theorem names_eval_of_none (hm : m.isExposed = true) (hsel : m.selector = none)
    (h : ∀ p ∈ m.parameters, ¬p.type.IsVoid) :
    m.names.eval names = .ok (some { labels := m.labelTexts names }) := by
  rw [names_of_exposed hm, exposedNames_of_none hsel, bind_assoc,
    Naming.eval_bind_ok (derivedLabels_eval h)]
  simp only [pure_bind]
  split <;> rfl

theorem Overloads.labelTexts_eq_iff (h : m.Overloads m') (names : DeclaredType → String) :
    m.labelTexts names = m'.labelTexts names ↔
      m.parameters.map (·.type.arrayLayers) = m'.parameters.map (·.type.arrayLayers) := by
  have hparameters := h.parameters
  rw [labelTexts, labelTexts, h.isConstructor]
  cases hm : m.parameters with
  | nil =>
    rw [hm] at hparameters
    rw [List.forall₂_nil_left_iff.mp hparameters]
    exact iff_of_true rfl rfl
  | cons first rest =>
    rw [hm] at hparameters
    obtain ⟨first', rest', hfirst, hrest, hm'⟩ := List.forall₂_cons_left_iff.mp hparameters
    rw [hm']
    simp only [List.map_cons, List.cons.injEq, String.append_right_inj,
      Parameter.labelText_eq_iff hfirst, map_labelText_eq_iff hrest]

theorem Overloads.names_eval_eq_iff (h : m.Overloads m') :
    m.names.eval names = m'.names.eval names ↔
      m.parameters.map (·.type.arrayLayers) = m'.parameters.map (·.type.arrayLayers) := by
  obtain ⟨hvoid, hvoid'⟩ := h.parameters.notVoid
  rw [names_eval_of_none h.isExposed h.selector hvoid,
    names_eval_of_none h.isExposed' h.selector' hvoid', ← h.labelTexts_eq_iff names]
  simp

end Method

/-- **Array layers over one leaf are told apart by the names.**

Take two uses over one leaf that has a name, with no array layer of no dimensions, and let a
supplier answer alike for the leaf in two stores, as it does if they are the same. Then the two
names are equal exactly if the dimensions of the array layers are, from the outside in, whether the
object root is `id` or not; and so are the two labels. Overloads that differ at most in array layers
therefore get the same labels exactly if they do not differ in them either, where declared types
have fixed names. -/
theorem TypeUse.shapes_told_apart {σ : Type} (supplier : Supplier σ) :
    (∀ (s s' : σ) (u v : TypeUse), u.OverOneLeaf v →
      (∀ t, u.leaf = .declared t → (supplier t s).value = (supplier t s').value) →
      (∀ rootAsId, ((u.name rootAsId).run supplier s).value =
          ((v.name rootAsId).run supplier s').value ↔ u.arrayLayers = v.arrayLayers) ∧
        ((u.label.run supplier s).value = (v.label.run supplier s').value ↔
          u.arrayLayers = v.arrayLayers)) ∧
    ∀ (names : DeclaredType → String) (m m' : Method), m.Overloads m' →
      (m.names.eval names = m'.names.eval names ↔
        m.parameters.map (·.type.arrayLayers) = m'.parameters.map (·.type.arrayLayers)) := by
  refine ⟨fun s s' u v h hanswer => ⟨fun rootAsId => ?_, ?_⟩, fun names m m' h =>
    h.names_eval_eq_iff⟩
  · rw [run_name_eq_written, run_name_eq_written, written_eq_ok h.notVoid,
      written_eq_ok h.notVoid_right, Except.ok.injEq]
    exact shape_text_eq_iff id h hanswer (fun _ _ => rfl) rfl
  · rw [run_label_eq_written, run_label_eq_written, written_eq_ok h.notVoid,
      written_eq_ok h.notVoid_right, Except.map, Except.map, Except.ok.injEq]
    exact shape_text_eq_iff titled h hanswer titled_append_layerText (by decide)

/-- An array of two dimensions is told from an array of arrays, and the object root from an array of
it, although the root alone is `id`. -/
theorem TypeUse.layers_over_int_and_root_told_apart :
    let int := primitive .int
    let root := declared (DeclaredType.ofQualifiedName "java.lang.Object")
    let roots := array (typeVariable root) 1
    let flat : Method := { name := "f", parameters := [⟨"a", array int 2⟩] }
    let deep : Method := { name := "f", parameters := [⟨"b", array (array int 1) 1⟩] }
    (root.OverOneLeaf roots ∧ flat.Overloads deep) ∧
      (root.label.run (direct : Supplier Unit) ()).value ≠ (roots.label.run direct ()).value ∧
      flat.names.eval DeclaredType.name ≠ deep.names.eval DeclaredType.name := by
  intro int root roots flat deep
  have hroot : root.OverOneLeaf roots := ⟨rfl, by decide, by decide, by decide⟩
  have hint : (array int 2).OverOneLeaf (array (array int 1) 1) :=
    ⟨rfl, by decide, by decide, by decide⟩
  have hoverloads : flat.Overloads deep := ⟨.cons hint .nil, rfl, rfl, rfl, rfl, rfl⟩
  obtain ⟨huses, hmethods⟩ := shapes_told_apart (direct : Supplier Unit)
  have hlabels := (huses () () root roots hroot fun _ _ => rfl).2
  have hnames := hmethods DeclaredType.name flat deep hoverloads
  exact ⟨⟨hroot, hoverloads⟩, hlabels.not.mpr (by decide), hnames.not.mpr (by decide)⟩

end BridgeNames
