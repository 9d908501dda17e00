import BridgeNames.Descriptor.Write
import BridgeNames.Proofs.Descriptor.Schema
import BridgeNames.Proofs.Json.ReadingBack

/-!
# Descriptions are read back from what is written

What is written for a description is read as the same description, unless it opens more levels than
may be opened; then the text is refused as a faulty one, and never taken for another description
(`BridgeNames.descriptions_read_back`).

* As long as there are levels enough, this is a matter of the schema: what is written describes what
  it was written for (`BridgeNames.DeclaredType.isDescribedBy_toValue` and its likes).
* With too few levels the reader goes on, through members that it can still read, to the one that
  opens a level too many. So there is one proof for each kind of description, along its recursion
  (`BridgeNames.DeclaredType.read_of_too_deep` and its likes).

A declared type opens one level for each type of its chain, and an array layer or a type variable
two.
-/

namespace BridgeNames

open Json

/-! ### Keywords -/

theorem Primitive.readsBack : ReadsBack Primitive.read Primitive.toValue :=
  readsBack_of_reads Primitive.reads (fun _ => .inl rfl) fun _ _ h => absurd h (Nat.not_lt_zero _)

theorem Visibility.readsBack : ReadsBack Visibility.read Visibility.toValue :=
  readsBack_of_reads Visibility.reads (fun _ => .inl rfl) fun _ _ h => absurd h (Nat.not_lt_zero _)

/-! ### Declared types -/

section OptionalMember

variable (key : String) (s : Option String)

theorem membersDepth_optionalMember : membersDepth (optionalMember key s) = 0 := by
  cases s <;> rfl

theorem membersWritable_optionalMember : MembersWritable (optionalMember key s) := by
  cases s with
  | none => trivial
  | some s => exact ⟨trivial, trivial⟩

theorem sublist_optionalMember : ((optionalMember key s).map Prod.fst).Sublist [key] := by
  cases s with
  | none => exact List.nil_sublist _
  | some s => exact .refl _

end OptionalMember

namespace Declaration

theorem membersDepth_trailingMembers (d : Declaration) : membersDepth d.trailingMembers = 0 := by
  simp only [trailingMembers, membersDepth_append, membersDepth_optionalMember, Nat.max_self]

theorem membersWritable_trailingMembers (d : Declaration) :
    MembersWritable d.trailingMembers := by
  simp only [trailingMembers, membersWritable_append, membersWritable_optionalMember, and_self]

theorem sublist_trailingMembers (d : Declaration) :
    (d.trailingMembers.map Prod.fst).Sublist ["packageName", "objcName", "objcNamePrefix"] := by
  rw [trailingMembers, List.map_append, List.map_append]
  exact ((sublist_optionalMember _ _).append (sublist_optionalMember _ _)).append
    (sublist_optionalMember _ _)

/-- A declaration that is written without an enclosing type. -/
theorem isGivenBy_members (d : Declaration) :
    d.IsGivenBy (d.leadingMembers ++ d.trailingMembers) := by
  obtain ⟨_, _, package, name, objcPrefix⟩ := d
  cases package <;> cases name <;> cases objcPrefix <;>
    exact ⟨⟨_, rfl, rfl⟩, ⟨_, rfl, rfl⟩, rfl, rfl, rfl⟩

/-- A declaration that is written with an enclosing type. -/
theorem isGivenBy_members_enclosing (d : Declaration) (w : Value) :
    d.IsGivenBy (d.leadingMembers ++ ("enclosing", w) :: d.trailingMembers) := by
  obtain ⟨_, _, package, name, objcPrefix⟩ := d
  cases package <;> cases name <;> cases objcPrefix <;>
    exact ⟨⟨_, rfl, rfl⟩, ⟨_, rfl, rfl⟩, rfl, rfl, rfl⟩

end Declaration

namespace DeclaredType

/-- **A declared type opens a level for each type of its chain.** -/
theorem depth_toValue (t : DeclaredType) : t.toValue.depth = t.chain.length := by
  induction t with
  | topLevel d =>
    simp [toValue, Value.depth, chain, Declaration.leadingMembers, membersDepth,
      d.membersDepth_trailingMembers]
  | nested d e ih =>
    simp [toValue, Value.depth, chain, Declaration.leadingMembers, membersDepth,
      d.membersDepth_trailingMembers, ih]

theorem isWritable_toValue (t : DeclaredType) : t.toValue.IsWritable := by
  induction t with
  | topLevel d => exact ⟨trivial, trivial, d.membersWritable_trailingMembers⟩
  | nested d e ih => exact ⟨trivial, trivial, ih, d.membersWritable_trailingMembers⟩

/-- What is written for a declared type describes it. -/
theorem isDescribedBy_toValue (t : DeclaredType) : t.IsDescribedBy t.toValue := by
  have hkeys : keys.Nodup := by decide
  induction t with
  | topLevel d =>
    have hsublist := d.sublist_trailingMembers
    refine ⟨_, givesMembers_of_sublist ?_ hkeys, d.isGivenBy_members, ?_⟩
    · exact .cons_cons _ (.cons_cons _ (.cons _ hsublist))
    · obtain ⟨_, _, package, name, objcPrefix⟩ := d
      cases package <;> cases name <;> cases objcPrefix <;> trivial
  | nested d e ih =>
    have hsublist := d.sublist_trailingMembers
    refine ⟨_, givesMembers_of_sublist ?_ hkeys, d.isGivenBy_members_enclosing _, _, rfl, ih⟩
    exact .cons_cons _ (.cons_cons _ (.cons_cons _ hsublist))

/-- The names are read, and the enclosing type fails. -/
theorem read_of_too_deep (t : DeclaredType) (levels : Nat) (h : levels < t.toValue.depth) :
    DeclaredType.read levels t.toValue.tree = fail .malformed := by
  rw [depth_toValue] at h
  induction t generalizing levels with
  | topLevel d =>
    obtain rfl : levels = 0 := Nat.lt_one_iff.mp h
    rfl
  | nested d e ih =>
    cases levels with
    | zero => rfl
    | succ levels =>
      have hinner := ih levels (Nat.lt_of_succ_lt_succ h)
      have henclosing : readOptional (DeclaredType.read levels) e.toValue.tree =
          fail .malformed := by
        cases e <;> exact congrArg (some <$> ·) hinner
      have hmembers : (DeclaredDraft.record (DeclaredType.read levels)).readMembers
          (memberTrees (d.leadingMembers ++ ("enclosing", e.toValue) :: d.trailingMembers)) []
          .blank = fail .malformed := by
        -- both names are read; what comes after the enclosing type is not reached
        refine (Record.readMembers_cons_of_ok rfl (by decide) rfl).trans ?_
        refine (Record.readMembers_cons_of_ok rfl (by decide) rfl).trans ?_
        refine Record.readMembers_cons_of_error rfl (by decide) ?_
        exact congrArg (· >>= _) henclosing
      rw [DeclaredType.read, toValue, Record.read_object_of_error hmembers]
      rfl

theorem readsBack : ReadsBack DeclaredType.read toValue :=
  readsBack_of_reads reads isDescribedBy_toValue read_of_too_deep

end DeclaredType

/-! ### Uses of types -/

theorem isUInt32_ofNat (n : UInt32) : IsUInt32 n (.ofNat n.toNat) :=
  ⟨_, rfl, rfl, rfl, rfl, Nat.ofDigitChars_ten_toDigits⟩

namespace TypeUse

theorem isWritable_toValue (use : TypeUse) : use.toValue.IsWritable := by
  induction use with
  | primitive kind => exact ⟨trivial, trivial⟩
  | array element dimensions ih => exact ⟨⟨ih, numeralText_ofNat _, trivial⟩, trivial⟩
  | declared type => exact ⟨type.isWritable_toValue, trivial⟩
  | typeVariable bound ih => exact ⟨⟨ih, trivial⟩, trivial⟩

/-- What is written for a use describes it. -/
theorem isDescribedBy_toValue (use : TypeUse) : use.IsDescribedBy use.toValue := by
  induction use with
  | primitive kind => exact ⟨_, rfl, .inl rfl⟩
  | array element dimensions ih =>
    refine ⟨_, rfl, _, givesMembers_of_sublist (.refl _) (by decide), ⟨_, rfl, ih⟩, _, rfl, ?_⟩
    exact isUInt32_ofNat dimensions
  | declared type => exact ⟨_, rfl, type.isDescribedBy_toValue⟩
  | typeVariable bound ih =>
    exact ⟨_, rfl, _, givesMembers_of_sublist (.refl _) (by decide), _, rfl, ih⟩

/-- An array layer and a type variable open two levels, one for the choice and one for what it
holds. -/
theorem depth_toValue_array (element : TypeUse) (dimensions : UInt32) :
    (array element dimensions).toValue.depth = element.toValue.depth + 2 := by
  simp [toValue, Value.depth, membersDepth, Value.ofNat]

theorem depth_toValue_typeVariable (bound : TypeUse) :
    (typeVariable bound).toValue.depth = bound.toValue.depth + 2 := by
  simp [toValue, Value.depth, membersDepth]

theorem depth_toValue_declared (type : DeclaredType) :
    (declared type).toValue.depth = type.toValue.depth + 1 := by
  simp [toValue, Value.depth, membersDepth]

/-- The layers are read, and the first that is too far in fails. -/
theorem read_of_too_deep (use : TypeUse) (levels : Nat) (h : levels < use.toValue.depth) :
    TypeUse.read levels use.toValue.tree = fail .malformed := by
  induction use generalizing levels with
  | primitive kind =>
    obtain rfl : levels = 0 := Nat.lt_one_iff.mp h
    rfl
  | declared type =>
    rw [depth_toValue_declared] at h
    match levels with
    | 0 => rfl
    | 1 | levels + 2 =>
      have htype := type.read_of_too_deep _ (Nat.lt_of_succ_lt_succ h)
      exact (readChoice_member _ _ _ _).trans (congrArg (declared <$> ·) htype)
  | array element dimensions ih =>
    rw [depth_toValue_array] at h
    -- without two levels the element is not even reached
    match levels with
    | 0 => rfl
    | 1 => rfl
    | levels + 2 =>
      have helement := ih levels (by omega)
      have hlayer : (arrayRecord (TypeUse.read levels)).read (blank, 0) (Value.object
          [("element", element.toValue), ("dimensions", .ofNat dimensions.toNat)]).tree =
            fail .malformed := by
        refine Record.read_object_of_error ?_
        refine Record.readMembers_cons_of_error rfl (by decide) ?_
        exact congrArg (· >>= _) helement
      refine (readChoice_member _ _ _ _).trans ?_
      exact congrArg (· >>= fun layer => pure (array layer.1 layer.2)) hlayer
  | typeVariable bound ih =>
    rw [depth_toValue_typeVariable] at h
    match levels with
    | 0 => rfl
    | 1 => rfl
    | levels + 2 =>
      have hbound := ih levels (by omega)
      have hlayer : (variableRecord (TypeUse.read levels)).read blank (Value.object
          [("upperBound", bound.toValue)]).tree = fail .malformed := by
        refine Record.read_object_of_error ?_
        refine Record.readMembers_cons_of_error rfl (by decide) ?_
        exact congrArg (· >>= _) hbound
      exact (readChoice_member _ _ _ _).trans (congrArg (typeVariable <$> ·) hlayer)

theorem readsBack : ReadsBack TypeUse.read toValue :=
  readsBack_of_reads reads isDescribedBy_toValue read_of_too_deep

end TypeUse

/-! ### Methods -/

namespace Parameter

theorem depth_toValue (p : Parameter) : p.toValue.depth = p.type.toValue.depth + 1 := by
  simp [toValue, Value.depth, membersDepth]

theorem isWritable_toValue (p : Parameter) : p.toValue.IsWritable :=
  ⟨trivial, p.type.isWritable_toValue, trivial⟩

/-- What is written for a parameter describes it. -/
theorem isDescribedBy_toValue (p : Parameter) : p.IsDescribedBy p.toValue :=
  ⟨_, givesMembers_of_sublist (.refl _) (by decide), ⟨_, rfl, rfl⟩, _, rfl,
    p.type.isDescribedBy_toValue⟩

/-- The name is read, and the type fails. -/
theorem read_of_too_deep (p : Parameter) (levels : Nat) (h : levels < p.toValue.depth) :
    Parameter.read levels p.toValue.tree = fail .malformed := by
  rw [depth_toValue] at h
  cases levels with
  | zero => rfl
  | succ levels =>
    have htype := p.type.read_of_too_deep levels (Nat.lt_of_succ_lt_succ h)
    refine Record.read_object_of_error ?_
    refine (Record.readMembers_cons_of_ok rfl (by decide) rfl).trans ?_
    refine Record.readMembers_cons_of_error rfl (by decide) ?_
    exact congrArg (· >>= _) htype

theorem readsBack : ReadsBack Parameter.read toValue :=
  readsBack_of_reads reads isDescribedBy_toValue read_of_too_deep

end Parameter

namespace Method

/-- What stands for the parameters of a method. -/
abbrev parametersValue (m : Method) : Value := .array (m.parameters.map Parameter.toValue)

theorem depth_toValue (m : Method) : m.toValue.depth = m.parametersValue.depth + 1 := by
  simp [toValue, Visibility.toValue, Value.depth, membersDepth, membersDepth_append,
    membersDepth_optionalMember]

theorem isWritable_toValue (m : Method) : m.toValue.IsWritable := by
  have hparameters : ItemsWritable (m.parameters.map Parameter.toValue) :=
    itemsWritable_map Parameter.isWritable_toValue
  have hselector := membersWritable_optionalMember "objcName" m.selector
  have hrest : MembersWritable
      (optionalMember "objcName" m.selector ++
        [("isSyntheticOverride", .bool m.isGeneratedOverride)]) :=
    membersWritable_append.mpr ⟨hselector, trivial, trivial⟩
  exact ⟨trivial, hparameters, trivial, trivial, hrest⟩

/-- What is written for a method describes it. -/
theorem isDescribedBy_toValue (m : Method) : m.IsDescribedBy m.toValue := by
  have hkeys : keys.Nodup := by decide
  have hparameters : IsList Parameter.IsDescribedBy m.parameters m.parametersValue := by
    refine ⟨_, rfl, ?_⟩
    rw [List.forall₂_map_right_iff, List.forall₂_same]
    exact fun p _ => p.isDescribedBy_toValue
  obtain ⟨name, parameters, isConstructor, visibility, selector, isGenerated⟩ := m
  refine ⟨_, givesMembers_of_sublist ?_ hkeys, ?_⟩
  · have hselector := sublist_optionalMember "objcName" selector
    rw [List.map_append, List.map_append]
    exact ((List.Sublist.refl _).append hselector).append (.refl _)
  · cases selector <;> exact ⟨⟨_, rfl, rfl⟩, hparameters, rfl, .inl rfl, rfl, rfl⟩

/-- The name is read, and the parameters fail. -/
theorem read_of_too_deep (m : Method) (levels : Nat) (h : levels < m.toValue.depth) :
    Method.read levels m.toValue.tree = fail .malformed := by
  rw [depth_toValue] at h
  cases levels with
  | zero => rfl
  | succ levels =>
    have hparameters := readList_of_too_deep Parameter.readsBack (Nat.lt_of_succ_lt_succ h)
    refine Record.read_object_of_error ?_
    refine (Record.readMembers_cons_of_ok rfl (by decide) rfl).trans ?_
    refine Record.readMembers_cons_of_error rfl (by decide) ?_
    exact congrArg (· >>= _) hparameters

theorem readsBack : ReadsBack Method.read toValue :=
  readsBack_of_reads reads isDescribedBy_toValue read_of_too_deep

end Method

/-! ### Texts -/

/-- **Every description is read back from the text that is written for it**, as long as the text
nests no more than 127 containers; a text that nests more is refused. The text of a declared type
nests as many as its chain is long. -/
theorem descriptions_read_back :
    TextReadsBack DeclaredType.read DeclaredType.toValue ∧
      TextReadsBack TypeUse.read TypeUse.toValue ∧
      TextReadsBack Primitive.read Primitive.toValue ∧
      TextReadsBack Visibility.read Visibility.toValue ∧
      TextReadsBack Parameter.read Parameter.toValue ∧
      TextReadsBack Method.read Method.toValue ∧
      ∀ t : DeclaredType, readText DeclaredType.read (String.ofList t.toValue.toText) = .ok t ↔
        t.chain.length ≤ 127 := by
  have hdeclared : TextReadsBack DeclaredType.read DeclaredType.toValue :=
    DeclaredType.readsBack.text DeclaredType.isWritable_toValue
  refine ⟨hdeclared, TypeUse.readsBack.text TypeUse.isWritable_toValue,
    Primitive.readsBack.text fun _ => trivial, Visibility.readsBack.text fun _ => trivial,
    Parameter.readsBack.text Parameter.isWritable_toValue,
    Method.readsBack.text Method.isWritable_toValue, fun t => ?_⟩
  rw [hdeclared t, t.depth_toValue]
  split
  · next hdepth => exact iff_of_true rfl hdepth
  · next hdepth => exact iff_of_false (fun h => by cases h) hdepth

end BridgeNames
