import BridgeNames.Descriptor.Read
import BridgeNames.Proofs.Json.Shapes
import BridgeNames.Proofs.Json.Writing

/-!
# The schema of descriptions

Which JSON values describe a type, a method or what they are made of, and what they describe. The
schema speaks of values only: of the members that an object has or an array gives, in whatever order
they come, and of the values of these members.

* `BridgeNames.DeclaredType.IsDescribedBy`, and likewise for every other kind of description, says
  that a value describes just this one.
* `BridgeNames.DeclaredType.reads`, and likewise, says that the reader takes a value for a
  description just if the value describes it, as long as there are levels enough.
* `BridgeNames.readText_eq_ok_iff_isDescribedBy` says the same of texts.

Each record comes with its entries, and these with the laws that make them independent.
-/

namespace BridgeNames

open Json

/-! ### Keywords -/

/-- The value describes the primitive. -/
def Primitive.IsDescribedBy : Primitive → Value → Prop := IsKeyword Primitive.keyword

theorem Primitive.reads (levels : Nat) : Reads (Primitive.read levels) IsDescribedBy levels :=
  reads_keyword mem_all (by decide) levels

/-- The value describes the visibility. -/
def Visibility.IsDescribedBy : Visibility → Value → Prop := IsKeyword Visibility.keyword

theorem Visibility.reads (levels : Nat) : Reads (Visibility.read levels) IsDescribedBy levels :=
  reads_keyword mem_all (by decide) levels

/-- The value describes a text that may be absent. -/
abbrev IsOptionalString : Option String → Value → Prop := IsOptional IsString

theorem reads_optionalString (levels : Nat) :
    Reads (readOptional readString) IsOptionalString levels :=
  reads_optional (reads_string levels) fun _ h => by cases h

/-! ### Declared types -/

/-- The members give the declaration, whatever they say of an enclosing type. -/
def Declaration.IsGivenBy (d : Declaration) (members : List (String × Value)) : Prop :=
  HasMember members "qualifiedBinaryName" (IsString d.binaryName) ∧
    HasMember members "simpleSourceName" (IsString d.simpleName) ∧
      MayHaveMember members "packageName" (d.packageName = none)
        (IsOptionalString d.packageName) ∧
      MayHaveMember members "objcName" (d.objcName = none) (IsOptionalString d.objcName) ∧
      MayHaveMember members "objcNamePrefix" (d.objcPrefix = none) (IsOptionalString d.objcPrefix)

namespace DeclaredType

/-- The keys of a declared type. -/
def keys : List String := [
  "qualifiedBinaryName", "simpleSourceName", "enclosing", "packageName", "objcName",
  "objcNamePrefix"]

/-- **The value describes the type**, level by level. -/
def IsDescribedBy : DeclaredType → Value → Prop
  | topLevel d, v => ∃ members, GivesMembers keys v members ∧ d.IsGivenBy members ∧
      MayHaveMember members "enclosing" True (· = .null)
  | nested d e, v => ∃ members, GivesMembers keys v members ∧ d.IsGivenBy members ∧
      HasMember members "enclosing" fun w => e.IsDescribedBy w

theorem IsDescribedBy.depth_pos {t : DeclaredType} {v : Value} (h : t.IsDescribedBy v) :
    0 < v.depth := by
  cases t with
  | topLevel d =>
    obtain ⟨_, hmembers, _⟩ := h
    exact hmembers.depth_pos
  | nested d e =>
    obtain ⟨_, hmembers, _⟩ := h
    exact hmembers.depth_pos

end DeclaredType

namespace DeclaredDraft

theorem type_eq_iff {draft : DeclaredDraft} {t : DeclaredType} :
    draft.type = t ↔ draft = ⟨t.declaration, t.enclosing?⟩ := by
  obtain ⟨d, e⟩ := draft
  cases e <;> cases t <;>
    simp [type, DeclaredType.declaration, DeclaredType.enclosing?]

/-- The fields of a declared type, with the parts that they set. -/
def entries (readEnclosing : Reader DeclaredType) : List (Entry DeclaredDraft) := [
  .mandatory "qualifiedBinaryName" readString (fun s => modify ({ · with binaryName := s }))
    (·.declaration.binaryName) IsString,
  .mandatory "simpleSourceName" readString (fun s => modify ({ · with simpleName := s }))
    (·.declaration.simpleName) IsString,
  .defaulted "enclosing" (readOptional readEnclosing)
    (fun e draft => { draft with enclosing := e }) (·.enclosing)
    (IsOptional DeclaredType.IsDescribedBy),
  .defaulted "packageName" (readOptional readString)
    (fun s => modify ({ · with packageName := s })) (·.declaration.packageName) IsOptionalString,
  .defaulted "objcName" (readOptional readString) (fun s => modify ({ · with objcName := s }))
    (·.declaration.objcName) IsOptionalString,
  .defaulted "objcNamePrefix" (readOptional readString)
    (fun s => modify ({ · with objcPrefix := s })) (·.declaration.objcPrefix) IsOptionalString]

variable {readEnclosing : Reader DeclaredType} {levels : Nat}

theorem lawful (h : Reads readEnclosing DeclaredType.IsDescribedBy levels) :
    (record readEnclosing).Lawful (entries readEnclosing) levels where
  fields_eq := rfl
  nodup := by
    change DeclaredType.keys.Nodup
    decide
  fills := by
    have hstring := reads_string levels
    have hoptional := reads_optionalString levels
    have henclosing := reads_optional h fun _ hnull => absurd hnull.depth_pos (Nat.lt_irrefl 0)
    simp only [entries, List.forall_mem_cons]
    exact ⟨Entry.fills_mandatory hstring, Entry.fills_mandatory hstring,
      Entry.fills_defaulted henclosing, Entry.fills_defaulted hoptional,
      Entry.fills_defaulted hoptional, Entry.fills_defaulted hoptional, by simp⟩
  get_put := by
    simp only [entries, List.forall_mem_cons]
    exact ⟨fun _ _ => rfl, fun _ _ => rfl, fun _ _ => rfl, fun _ _ => rfl, fun _ _ => rfl,
      fun _ _ => rfl, by simp⟩
  get_put_of_ne := by
    -- two fields: the same one twice, or parts of the draft that have nothing to do with each other
    intro e he e' he' hne a x
    simp only [entries, List.mem_cons, List.not_mem_nil, or_false] at he he'
    rcases he with rfl | rfl | rfl | rfl | rfl | rfl <;>
      rcases he' with rfl | rfl | rfl | rfl | rfl | rfl <;>
        first | exact absurd rfl hne | rfl
  ext := by
    rintro ⟨⟨_, _, _, _, _⟩, _⟩ ⟨⟨_, _, _, _, _⟩, _⟩ h
    simp only [entries, List.forall_mem_cons] at h
    obtain ⟨hbinary, hsimple, henclosing, hpackage, hname, hprefix, -⟩ := h
    cases hbinary
    cases hsimple
    cases henclosing
    cases hpackage
    cases hname
    cases hprefix
    rfl

/-- What the entries of a type are given by members is its declaration and its enclosing type. -/
theorem isGiven_iff {members : List (String × Value)} {draft : DeclaredDraft} :
    (∀ e ∈ entries readEnclosing, e.IsGiven members blank draft) ↔
      draft.declaration.IsGivenBy members ∧
        MayHaveMember members "enclosing" (draft.enclosing = none)
          (IsOptional DeclaredType.IsDescribedBy draft.enclosing) := by
  simp only [entries, List.forall_mem_cons, isGiven_mandatory, isGiven_defaulted]
  rw [Declaration.IsGivenBy]
  constructor
  · rintro ⟨hbinary, hsimple, henclosing, hpackage, hname, hprefix, -⟩
    exact ⟨⟨hbinary, hsimple, hpackage, hname, hprefix⟩, henclosing⟩
  · rintro ⟨⟨hbinary, hsimple, hpackage, hname, hprefix⟩, henclosing⟩
    exact ⟨hbinary, hsimple, henclosing, hpackage, hname, hprefix, by simp⟩

end DeclaredDraft

theorem DeclaredType.isDescribedBy_iff {t : DeclaredType} {v : Value} :
    t.IsDescribedBy v ↔ ∃ members, GivesMembers keys v members ∧
      t.declaration.IsGivenBy members ∧
        MayHaveMember members "enclosing" (t.enclosing? = none)
          (IsOptional IsDescribedBy t.enclosing?) := by
  cases t with
  | topLevel d =>
    have hnone : ((topLevel d).enclosing? = none) = True := eq_self _
    rw [IsDescribedBy, hnone]
    rfl
  | nested d e =>
    have hsome : ((nested d e).enclosing? = none) = False := eq_false fun h => by cases h
    simp only [IsDescribedBy, hsome, mayHaveMember_false]
    rfl

/-- **The reader of declared types takes just what describes one.** -/
theorem DeclaredType.reads (levels : Nat) :
    Reads (DeclaredType.read levels) IsDescribedBy levels := by
  induction levels with
  | zero => exact reads_tooDeep _ fun _ _ h => h.depth_pos
  | succ levels ih =>
    have hread : DeclaredType.read (levels + 1) = fun tree => DeclaredDraft.type <$>
        (DeclaredDraft.record (DeclaredType.read levels)).read .blank tree := by
      funext tree
      rw [DeclaredType.read, bind_pure_comp]
    rw [hread]
    refine (((DeclaredDraft.lawful ih).reads rfl .blank).map _).congr fun t v => ?_
    simp only [DeclaredDraft.isGiven_iff, DeclaredDraft.type_eq_iff, isDescribedBy_iff]
    exact exists_eq_right

/-! ### Uses of types -/

namespace TypeUse

/-- **The value describes the use**: an object with one member, whose key says what kind of use it
is. -/
def IsDescribedBy : TypeUse → Value → Prop
  | primitive kind, v => ∃ w, v = .object [("primitive", w)] ∧ kind.IsDescribedBy w
  | array element dimensions, v => ∃ w, v = .object [("array", w)] ∧
      ∃ members, GivesMembers ["element", "dimensions"] w members ∧
        HasMember members "element" (fun part => element.IsDescribedBy part) ∧
          HasMember members "dimensions" (IsUInt32 dimensions)
  | declared type, v => ∃ w, v = .object [("declared", w)] ∧ type.IsDescribedBy w
  | typeVariable bound, v => ∃ w, v = .object [("typeVariable", w)] ∧
      ∃ members, GivesMembers ["upperBound"] w members ∧
        HasMember members "upperBound" fun part => bound.IsDescribedBy part

/-- The fields of an array layer, with the parts that they set. -/
def arrayEntries (readElement : Reader TypeUse) : List (Entry (TypeUse × UInt32)) := [
  .mandatory "element" readElement (fun element layer => (element, layer.2)) Prod.fst
    IsDescribedBy,
  .mandatory "dimensions" readUInt32 (fun dimensions layer => (layer.1, dimensions)) Prod.snd
    IsUInt32]

/-- The field of a type variable, with the part that it sets. -/
def variableEntries (readBound : Reader TypeUse) : List (Entry TypeUse) := [
  .mandatory "upperBound" readBound (fun bound _ => bound) id IsDescribedBy]

variable {readInner : Reader TypeUse} {levels : Nat}

theorem array_lawful (h : Reads readInner IsDescribedBy levels) :
    (arrayRecord readInner).Lawful (arrayEntries readInner) levels where
  fields_eq := rfl
  nodup := by
    change ["element", "dimensions"].Nodup
    decide
  fills := by
    simp only [arrayEntries, List.forall_mem_cons]
    exact ⟨Entry.fills_mandatory h, Entry.fills_mandatory (reads_uInt32 levels), by simp⟩
  get_put := by
    simp only [arrayEntries, List.forall_mem_cons]
    exact ⟨fun _ _ => rfl, fun _ _ => rfl, by simp⟩
  get_put_of_ne := by
    intro e he e' he' hne a x
    simp only [arrayEntries, List.mem_cons, List.not_mem_nil, or_false] at he he'
    rcases he with rfl | rfl <;> rcases he' with rfl | rfl <;>
      first | exact absurd rfl hne | rfl
  ext := by
    intro x y h
    simp only [arrayEntries, List.forall_mem_cons] at h
    exact Prod.ext h.1 h.2.1

theorem variable_lawful (h : Reads readInner IsDescribedBy levels) :
    (variableRecord readInner).Lawful (variableEntries readInner) levels where
  fields_eq := rfl
  nodup := List.nodup_singleton _
  fills := by
    simp only [variableEntries, List.forall_mem_cons]
    exact ⟨Entry.fills_mandatory h, by simp⟩
  get_put := by
    simp only [variableEntries, List.forall_mem_cons]
    exact ⟨fun _ _ => rfl, by simp⟩
  get_put_of_ne := by
    intro e he e' he' hne
    rw [List.mem_singleton.mp he, List.mem_singleton.mp he'] at hne
    exact absurd rfl hne
  ext := by
    intro x y h
    exact h _ (List.mem_singleton_self _)

theorem isDescribedBy_primitive {use : TypeUse} {w : Value} :
    use.IsDescribedBy (.object [("primitive", w)]) ↔
      ∃ kind : Primitive, kind.IsDescribedBy w ∧ primitive kind = use := by
  cases use <;> simp [IsDescribedBy]

theorem isDescribedBy_array {use : TypeUse} {w : Value} :
    use.IsDescribedBy (.object [("array", w)]) ↔
      ∃ layer : TypeUse × UInt32, (∃ members, GivesMembers ["element", "dimensions"] w members ∧
        HasMember members "element" layer.1.IsDescribedBy ∧
          HasMember members "dimensions" (IsUInt32 layer.2)) ∧ array layer.1 layer.2 = use := by
  cases use <;> simp [IsDescribedBy]

theorem isDescribedBy_declared {use : TypeUse} {w : Value} :
    use.IsDescribedBy (.object [("declared", w)]) ↔
      ∃ type : DeclaredType, type.IsDescribedBy w ∧ declared type = use := by
  cases use <;> simp [IsDescribedBy]

theorem isDescribedBy_typeVariable {use : TypeUse} {w : Value} :
    use.IsDescribedBy (.object [("typeVariable", w)]) ↔
      ∃ bound : TypeUse, (∃ members, GivesMembers ["upperBound"] w members ∧
        HasMember members "upperBound" bound.IsDescribedBy) ∧ typeVariable bound = use := by
  cases use <;> simp [IsDescribedBy]

/-- **The content of each variant is read** just where the object around it describes a use. -/
theorem reads_content (h : ∀ inner, levels = inner + 1 → Reads readInner IsDescribedBy inner) :
    ∀ variant ∈ variants readInner,
      Reads (variant.content levels) (fun use w => use.IsDescribedBy (.object [(variant.key, w)]))
        levels := by
  simp only [variants, List.forall_mem_cons]
  refine ⟨?primitive, ?array, ?declared, ?typeVariable, by simp⟩
  case primitive =>
    exact ((Primitive.reads levels).map primitive).congr fun _ _ => isDescribedBy_primitive.symm
  case declared =>
    exact ((DeclaredType.reads levels).map declared).congr fun _ _ => isDescribedBy_declared.symm
  case array =>
    cases levels with
    | zero =>
      refine reads_tooDeep _ fun use w hw => ?_
      obtain ⟨_, ⟨_, hmembers, _⟩, _⟩ := isDescribedBy_array.mp hw
      exact hmembers.depth_pos
    | succ inner =>
      have hlawful := array_lawful (h inner rfl)
      refine ((hlawful.reads rfl (blank, 0)).map fun layer => array layer.1 layer.2).congr
        fun use w => ?_
      simp only [arrayEntries, List.forall_mem_cons, isGiven_mandatory, List.not_mem_nil,
        IsEmpty.forall_iff, implies_true, and_true]
      exact isDescribedBy_array.symm
  case typeVariable =>
    cases levels with
    | zero =>
      refine reads_tooDeep _ fun use w hw => ?_
      obtain ⟨_, ⟨_, hmembers, _⟩, _⟩ := isDescribedBy_typeVariable.mp hw
      exact hmembers.depth_pos
    | succ inner =>
      have hlawful := variable_lawful (h inner rfl)
      refine ((hlawful.reads rfl blank).map typeVariable).congr fun use w => ?_
      simp only [variableEntries, List.forall_mem_cons, isGiven_mandatory, List.not_mem_nil,
        IsEmpty.forall_iff, implies_true, and_true]
      exact isDescribedBy_typeVariable.symm

/-- What describes a use is an object with the name and the content of a variant. -/
theorem IsDescribedBy.exists_variant {use : TypeUse} {v : Value} (h : use.IsDescribedBy v)
    (readInner : Reader TypeUse) :
    ∃ variant ∈ variants readInner, ∃ w, v = .object [(variant.key, w)] := by
  cases use with
  | primitive kind =>
    obtain ⟨w, rfl, _⟩ := h
    exact ⟨_, .head _, w, rfl⟩
  | array element dimensions =>
    obtain ⟨w, rfl, _⟩ := h
    exact ⟨_, .tail _ (.head _), w, rfl⟩
  | declared type =>
    obtain ⟨w, rfl, _⟩ := h
    exact ⟨_, .tail _ (.tail _ (.head _)), w, rfl⟩
  | typeVariable bound =>
    obtain ⟨w, rfl, _⟩ := h
    exact ⟨_, .tail _ (.tail _ (.tail _ (.head _))), w, rfl⟩

/-- One step of reading: the choice opens a level, and its content another. -/
theorem reads_choice (h : ∀ inner, levels = inner + 2 → Reads readInner IsDescribedBy inner) :
    Reads (readChoice (variants readInner) levels) IsDescribedBy levels := by
  intro v hv use
  have hnodup : ((variants readInner).map Variant.key).Nodup := by
    change ["primitive", "array", "declared", "typeVariable"].Nodup
    decide
  have hbare : ∀ variant ∈ variants readInner, variant.bare ≠ .ok use := by
    simp only [variants, List.forall_mem_cons]
    refine ⟨?_, ?_, ?_, ?_, by simp⟩ <;> exact fun hok => by cases hok
  -- a level has been opened for the content
  have hcontent : ∀ variant ∈ variants readInner, ∀ w, v = .object [(variant.key, w)] →
      (variant.content (levels - 1) w.tree = .ok use ↔ use.IsDescribedBy v) := by
    rintro variant hvariant w rfl
    have hdepth : w.depth + 1 ≤ levels := by
      simpa [Value.depth, membersDepth] using hv
    refine reads_content (fun inner hinner => h inner (by omega)) variant hvariant w ?_ use
    omega
  rw [readChoice_eq_ok_iff hnodup hv]
  constructor
  · rintro ⟨variant, hvariant, ⟨_, hok⟩ | ⟨w, hw, hread⟩⟩
    · exact absurd hok (hbare variant hvariant)
    · exact (hcontent variant hvariant w hw).mp hread
  · intro hdescribed
    obtain ⟨variant, hvariant, w, hw⟩ := hdescribed.exists_variant readInner
    exact ⟨variant, hvariant, .inr ⟨w, hw, (hcontent variant hvariant w hw).mpr hdescribed⟩⟩

/-- **The reader of uses takes just what describes one.** -/
theorem reads (levels : Nat) : Reads (TypeUse.read levels) IsDescribedBy levels := by
  induction levels using Nat.twoStepInduction with
  | zero => exact reads_choice fun _ h => by omega
  | one => exact reads_choice fun _ h => by omega
  | more levels ih _ =>
    -- what stands within a layer is two levels further in
    refine reads_choice fun inner hinner => ?_
    obtain rfl : inner = levels := by omega
    exact ih

end TypeUse

/-! ### Methods -/

namespace Parameter

/-- **The value describes the parameter.** -/
def IsDescribedBy (p : Parameter) (v : Value) : Prop :=
  ∃ members, GivesMembers ["name", "type"] v members ∧
    HasMember members "name" (IsString p.name) ∧ HasMember members "type" p.type.IsDescribedBy

/-- The fields of a parameter, with the parts that they set. -/
def entries (levels : Nat) : List (Entry Parameter) := [
  .mandatory "name" readString (fun s p => { p with name := s }) (·.name) IsString,
  .mandatory "type" (TypeUse.read levels) (fun use p => { p with type := use }) (·.type)
    TypeUse.IsDescribedBy]

theorem lawful (levels : Nat) : (record levels).Lawful (entries levels) levels where
  fields_eq := rfl
  nodup := by
    change ["name", "type"].Nodup
    decide
  fills := by
    simp only [entries, List.forall_mem_cons]
    exact ⟨Entry.fills_mandatory (reads_string levels),
      Entry.fills_mandatory (TypeUse.reads levels), by simp⟩
  get_put := by
    simp only [entries, List.forall_mem_cons]
    exact ⟨fun _ _ => rfl, fun _ _ => rfl, by simp⟩
  get_put_of_ne := by
    intro e he e' he' hne a x
    simp only [entries, List.mem_cons, List.not_mem_nil, or_false] at he he'
    rcases he with rfl | rfl <;> rcases he' with rfl | rfl <;>
      first | exact absurd rfl hne | rfl
  ext := by
    rintro ⟨_, _⟩ ⟨_, _⟩ h
    simp only [entries, List.forall_mem_cons] at h
    obtain ⟨hname, htype, -⟩ := h
    cases hname
    cases htype
    rfl

/-- **The reader of parameters takes just what describes one.** -/
theorem reads : (levels : Nat) → Reads (Parameter.read levels) IsDescribedBy levels
  | 0 => reads_tooDeep _ fun _ _ ⟨_, hmembers, _⟩ => hmembers.depth_pos
  | levels + 1 => by
    refine ((lawful levels).reads rfl _).congr fun p v => ?_
    simp only [entries, List.forall_mem_cons, isGiven_mandatory, List.not_mem_nil,
      IsEmpty.forall_iff, implies_true, and_true]
    rfl

end Parameter

namespace Method

/-- The keys of a method. -/
def keys : List String := [
  "name", "parameters", "isConstructor", "visibility", "objcName", "isSyntheticOverride"]

/-- The members give the method. -/
def IsGivenBy (m : Method) (members : List (String × Value)) : Prop :=
  HasMember members "name" (IsString m.name) ∧
    MayHaveMember members "parameters" (m.parameters = [])
      (IsList Parameter.IsDescribedBy m.parameters) ∧
    MayHaveMember members "isConstructor" (m.isConstructor = false) (IsBool m.isConstructor) ∧
    MayHaveMember members "visibility" (m.visibility = .publicAccess)
      m.visibility.IsDescribedBy ∧
    MayHaveMember members "objcName" (m.selector = none) (IsOptionalString m.selector) ∧
    MayHaveMember members "isSyntheticOverride" (m.isGeneratedOverride = false)
      (IsBool m.isGeneratedOverride)

/-- **The value describes the method.** -/
def IsDescribedBy (m : Method) (v : Value) : Prop :=
  ∃ members, GivesMembers keys v members ∧ m.IsGivenBy members

/-- The fields of a method, with the parts that they set. -/
def entries (levels : Nat) : List (Entry Method) := [
  .mandatory "name" readString (fun s m => { m with name := s }) (·.name) IsString,
  .defaulted "parameters" (readList Parameter.read levels) (fun ps m => { m with parameters := ps })
    (·.parameters) (IsList Parameter.IsDescribedBy),
  .defaulted "isConstructor" readBool (fun b m => { m with isConstructor := b }) (·.isConstructor)
    IsBool,
  .defaulted "visibility" (Visibility.read levels) (fun v m => { m with visibility := v })
    (·.visibility) Visibility.IsDescribedBy,
  .defaulted "objcName" (readOptional readString) (fun s m => { m with selector := s }) (·.selector)
    IsOptionalString,
  .defaulted "isSyntheticOverride" readBool (fun b m => { m with isGeneratedOverride := b })
    (·.isGeneratedOverride) IsBool]

theorem lawful (levels : Nat) : (record levels).Lawful (entries levels) levels where
  fields_eq := rfl
  nodup := by
    change keys.Nodup
    decide
  fills := by
    simp only [entries, List.forall_mem_cons]
    exact ⟨Entry.fills_mandatory (reads_string levels),
      Entry.fills_defaulted (reads_list Parameter.reads levels),
      Entry.fills_defaulted (reads_bool levels), Entry.fills_defaulted (Visibility.reads levels),
      Entry.fills_defaulted (reads_optionalString levels),
      Entry.fills_defaulted (reads_bool levels), by simp⟩
  get_put := by
    simp only [entries, List.forall_mem_cons]
    exact ⟨fun _ _ => rfl, fun _ _ => rfl, fun _ _ => rfl, fun _ _ => rfl, fun _ _ => rfl,
      fun _ _ => rfl, by simp⟩
  get_put_of_ne := by
    intro e he e' he' hne a x
    simp only [entries, List.mem_cons, List.not_mem_nil, or_false] at he he'
    rcases he with rfl | rfl | rfl | rfl | rfl | rfl <;>
      rcases he' with rfl | rfl | rfl | rfl | rfl | rfl <;>
        first | exact absurd rfl hne | rfl
  ext := by
    rintro ⟨_, _, _, _, _, _⟩ ⟨_, _, _, _, _, _⟩ h
    simp only [entries, List.forall_mem_cons] at h
    obtain ⟨hname, hparameters, hconstructor, hvisibility, hselector, hoverride, -⟩ := h
    cases hname
    cases hparameters
    cases hconstructor
    cases hvisibility
    cases hselector
    cases hoverride
    rfl

/-- **The reader of methods takes just what describes one.** -/
theorem reads : (levels : Nat) → Reads (Method.read levels) IsDescribedBy levels
  | 0 => reads_tooDeep _ fun _ _ ⟨_, hmembers, _⟩ => hmembers.depth_pos
  | levels + 1 => by
    refine ((lawful levels).reads rfl _).congr fun m v => ?_
    simp only [entries, List.forall_mem_cons, isGiven_mandatory, isGiven_defaulted,
      List.not_mem_nil, IsEmpty.forall_iff, implies_true, and_true]
    rfl

end Method

/-! ### Texts -/

/-- **A text is read just if its value conforms to the schema, and into what the value describes.**
The text is any text of a value, and the value nests no deeper than may be read. -/
theorem readText_eq_ok_iff_isDescribedBy {v : Value} {text : String} (htext : v.IsText text)
    (hdepth : v.depth ≤ 127) :
    (∀ t, readText DeclaredType.read text = .ok t ↔ t.IsDescribedBy v) ∧
      (∀ kind, readText Primitive.read text = .ok kind ↔ kind.IsDescribedBy v) ∧
      (∀ use, readText TypeUse.read text = .ok use ↔ use.IsDescribedBy v) ∧
      (∀ visibility, readText Visibility.read text = .ok visibility ↔
        visibility.IsDescribedBy v) ∧
      (∀ p, readText Parameter.read text = .ok p ↔ p.IsDescribedBy v) ∧
      ∀ m, readText Method.read text = .ok m ↔ m.IsDescribedBy v := by
  simp only [readText_of_isText _ htext]
  exact ⟨DeclaredType.reads levelLimit v hdepth, Primitive.reads levelLimit v hdepth,
    TypeUse.reads levelLimit v hdepth, Visibility.reads levelLimit v hdepth,
    Parameter.reads levelLimit v hdepth, Method.reads levelLimit v hdepth⟩

/-- A nested type in its array form, with as many items as are needed. -/
theorem readText_declaredType_of_items :
    readText DeclaredType.read "[\"a.B$C\",\"C\",[\"a.B\",\"B\"],null]" =
      .ok (.nested { binaryName := "a.B$C", simpleName := "C" } (.ofNames "a.B" "B")) := by
  let outer : Value := .array [.string "a.B", .string "B"]
  let v : Value := .array [.string "a.B$C", .string "C", outer, .null]
  have htext : v.IsText (String.ofList v.toText) :=
    v.isText_toText ⟨trivial, trivial, ⟨trivial, trivial, trivial⟩, trivial, trivial⟩
  have houter : (DeclaredType.ofNames "a.B" "B").IsDescribedBy outer :=
    ⟨_, .array (by decide), ⟨⟨_, rfl, rfl⟩, ⟨_, rfl, rfl⟩, rfl, rfl, rfl⟩, trivial⟩
  refine ((readText_eq_ok_iff_isDescribedBy htext (by decide)).1 _).mpr ?_
  exact ⟨_, .array (by decide), ⟨⟨_, rfl, rfl⟩, ⟨_, rfl, rfl⟩, rfl, rfl, rfl⟩, _, rfl, houter⟩

end BridgeNames
