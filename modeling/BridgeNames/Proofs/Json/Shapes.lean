import BridgeNames.Json.Choice
import BridgeNames.Proofs.Json.Filling

/-!
# The shapes of the plain readers

What a value has to look like to be taken for a string, a truth value, a number of 32 bits, an
optional thing, a list or one of several keywords, said of the value and not of its tree. For each
reader there is the statement that it reads just its shape (`BridgeNames.Json.Reads`).

| reader | shape |
|---|---|
| `readString`, `readBool`, `readUInt32` | `IsString`, `IsBool`, `IsUInt32` |
| `readOptional` | `IsOptional`: `null` is nothing |
| `readList` | `IsList`: the items one by one |
| `readChoice` of variants without content | `IsKeyword`: a bare name, or a name with `null` |

A choice between variants with content has no shape of its own;
`BridgeNames.Json.readChoice_eq_ok_iff` says which variant is taken.
-/

namespace BridgeNames.Json

/-! ### Plain values -/

/-- The value is the string. -/
def IsString (s : String) (v : Value) : Prop := v = .string s

/-- The value is the truth value. -/
def IsBool (b : Bool) (v : Value) : Prop := v = .bool b

/-- The numeral writes the natural number: it has no sign, no fraction and no exponent. -/
structure Numeral.Writes (numeral : Numeral) (n : Nat) : Prop where
  negative_eq : numeral.negative = false
  fraction_eq : numeral.fraction = []
  exponent_eq : numeral.exponent = none
  whole_eq : digitsValue numeral.whole = n

/-- The value is an integer literal of the number. -/
def IsUInt32 (n : UInt32) (v : Value) : Prop :=
  ∃ numeral : Numeral, v = .number numeral ∧ numeral.Writes n.toNat

section Plain

variable {α : Type} {Shape : α → Value → Prop} {levels : Nat}

theorem reads_string (levels : Nat) : Reads readString IsString levels := by
  intro v _ s
  cases v with
  | string s' =>
    have hread : readString (Value.string s').tree = .ok s' := rfl
    rw [hread, IsString, Value.string.injEq, Except.ok.injEq]
  | _ => simp only [Value.tree, readString, IsString, Tree.unexpected_ne_ok, reduceCtorEq]

theorem reads_bool (levels : Nat) : Reads readBool IsBool levels := by
  intro v _ b
  cases v with
  | bool b' =>
    have hread : readBool (Value.bool b').tree = .ok b' := rfl
    rw [hread, IsBool, Value.bool.injEq, Except.ok.injEq]
  | _ => simp only [Value.tree, readBool, IsBool, Tree.unexpected_ne_ok, reduceCtorEq]

/-- A numeral stands for a natural number if it writes one that fits into 64 bits. -/
theorem Numeral.value_eq_natural_iff {numeral : Numeral} {n : Nat} :
    numeral.value = .natural n ↔ numeral.Writes n ∧ n < UInt64.size := by
  by_cases hnatural : (numeral.fraction = [] ∧ numeral.exponent = none) ∧
      (!numeral.negative) = true ∧ digitsValue numeral.whole < UInt64.size
  · have hvalue : numeral.value = .natural (digitsValue numeral.whole) := if_pos hnatural
    obtain ⟨⟨hfraction, hexponent⟩, hsign, hsize⟩ := hnatural
    rw [hvalue, Number.natural.injEq]
    constructor
    · rintro rfl
      exact ⟨⟨by simpa using hsign, hfraction, hexponent, rfl⟩, hsize⟩
    · exact fun h => h.1.whole_eq
  · -- then it is a negative integer, a double or out of range
    refine iff_of_false (fun h => ?_) ?_
    · simp only [value, if_neg hnatural] at h
      split at h
      · cases h
      · cases hdouble : numeral.toDouble <;> rw [hdouble] at h <;> cases h
    · rintro ⟨⟨hsign, hfraction, hexponent, rfl⟩, hsize⟩
      exact hnatural ⟨⟨hfraction, hexponent⟩, by simpa using hsign, hsize⟩

/-- **A number of 32 bits is read** from an integer literal that is in range. -/
theorem reads_uInt32 (levels : Nat) : Reads readUInt32 IsUInt32 levels := by
  intro v _ n
  have hshape : ∀ numeral : Numeral, IsUInt32 n (.number numeral) ↔ numeral.Writes n.toNat := by
    intro numeral
    constructor
    · rintro ⟨_, h, hwrites⟩
      obtain rfl := Value.number.inj h
      exact hwrites
    · exact fun h => ⟨numeral, rfl, h⟩
  cases v with
  | number numeral =>
    have hread : readUInt32 (Value.number numeral).tree = .ok n ↔
        numeral.value = .natural n.toNat := by
      rw [Value.tree, readUInt32]
      cases numeral.value with
      | natural m =>
        rw [Number.natural.injEq]
        dsimp only
        split
        · next hm =>
          rw [Except.ok.injEq, ← UInt32.toNat_inj, UInt32.toNat_ofNat_of_lt' hm]
        · next hm =>
          refine iff_of_false (fun h => by cases h) ?_
          rintro rfl
          exact hm n.toNat_lt
      | _ => exact iff_of_false (fun h => by cases h) fun h => by cases h
    have hsize : n.toNat < UInt64.size := Nat.lt_trans n.toNat_lt (by decide)
    rw [hread, hshape, Numeral.value_eq_natural_iff, and_iff_left hsize]
  | _ =>
    simp only [Value.tree, readUInt32, Tree.unexpected_ne_ok, IsUInt32, reduceCtorEq, false_and,
      exists_false]

/-- The value is `null` and there is nothing, or it has the shape of what there is. -/
def IsOptional (Shape : α → Value → Prop) : Option α → Value → Prop
  | none, v => v = .null
  | some a, v => Shape a v

/-- What is optional is read by the reader of what there is, as long as that takes no `null`. -/
theorem reads_optional {reader : Reader α} (h : Reads reader Shape levels)
    (hnull : ∀ a, ¬ Shape a .null) : Reads (readOptional reader) (IsOptional Shape) levels := by
  intro v hv a
  cases v with
  | null =>
    have hread : readOptional reader (Value.null).tree = .ok none := rfl
    rw [hread, Except.ok.injEq]
    cases a with
    | none => exact iff_of_true rfl rfl
    | some a => exact iff_of_false (fun h => by cases h) (hnull a)
  | _ =>
    refine map_eq_ok_iff.trans ?_
    simp only [h _ hv]
    cases a with
    | none => exact iff_of_false (fun ⟨_, _, h⟩ => by cases h) fun h => by cases h
    | some a => simp [IsOptional]

/-! ### Lists -/

/-- The value is an array whose items have the shapes of the things, one by one. -/
def IsList (Shape : α → Value → Prop) (things : List α) (v : Value) : Prop :=
  ∃ items, v = .array items ∧ List.Forall₂ Shape things items

theorem mapM_itemTrees_eq_ok_iff {reader : Reader α} (h : Reads reader Shape levels)
    {items : List Value} (hitems : itemsDepth items ≤ levels) (things : List α) :
    (itemTrees items).mapM reader = .ok things ↔ List.Forall₂ Shape things items := by
  induction items generalizing things with
  | nil =>
    rw [List.forall₂_nil_right_iff]
    constructor
    · exact fun h => (Except.ok.inj h).symm
    · rintro rfl
      rfl
  | cons item items ih =>
    obtain ⟨hitem, hrest⟩ := Nat.max_le.mp hitems
    rw [itemTrees, List.mapM_cons, List.forall₂_cons_right_iff, bind_eq_ok_iff]
    simp only [bind_eq_ok_iff, h item hitem, ih hrest]
    constructor
    · rintro ⟨a, ha, as, has, heq⟩
      exact ⟨a, as, ha, has, (Except.ok.inj heq).symm⟩
    · rintro ⟨a, as, ha, has, rfl⟩
      exact ⟨a, ha, as, has, rfl⟩

/-- A reader that opens no level takes nothing that opens one. -/
theorem readTooDeep_ne_ok (wanted : String) (tree : Tree) (a : α) :
    readTooDeep wanted tree ≠ .ok a := by
  unfold readTooDeep
  split
  · exact fun h => by cases h
  · exact fun h => by cases h
  · exact fun h => by cases h
  · exact Tree.unexpected_ne_ok wanted tree a

/-- A shape of containers alone has no values without a level. -/
theorem reads_tooDeep (wanted : String) (h : ∀ a v, Shape a v → 0 < v.depth) :
    Reads (readTooDeep wanted) Shape 0 := by
  intro v hv a
  refine iff_of_false (readTooDeep_ne_ok wanted v.tree a) fun hshape => ?_
  exact absurd hv (Nat.not_le.mpr (h a v hshape))

/-- **A list is read item by item**, a level further in. -/
theorem reads_list {item : Nat → Reader α} (h : ∀ levels, Reads (item levels) Shape levels)
    (levels : Nat) : Reads (readList item levels) (IsList Shape) levels := by
  intro v hv things
  cases v with
  | array items =>
    cases levels with
    | zero => exact absurd hv (Nat.not_succ_le_zero _)
    | succ levels =>
      have hitems := mapM_itemTrees_eq_ok_iff (h levels) (Nat.le_of_succ_le_succ hv) things
      have hread : readList item (levels + 1) (Value.array items).tree = .ok things ↔
          (itemTrees items).mapM (item levels) = .ok things := by
        rw [Value.tree, readList, bind_eq_ok_iff]
        constructor
        · rintro ⟨values, hvalues, hrest⟩
          rw [hvalues]
          exact hrest
        · exact fun hvalues => ⟨things, hvalues, rfl⟩
      rw [hread, hitems]
      constructor
      · exact fun hthings => ⟨items, rfl, hthings⟩
      · rintro ⟨_, heq, hthings⟩
        obtain rfl := Value.array.inj heq
        exact hthings
  | _ =>
    cases levels <;>
      simp only [Value.tree, readList, readTooDeep_ne_ok, Tree.unexpected_ne_ok, IsList,
        reduceCtorEq, false_and, exists_false]

end Plain

/-! ### Choices -/

section Choices

variable {α : Type} {variants : List (Variant α)} {levels : Nat} {x : α}

/-- With names that are all different the variant of a name is the one that has it. -/
theorem findVariant_eq_ok_iff (hnodup : (variants.map Variant.key).Nodup) {key : String}
    {variant : Variant α} :
    findVariant variants key = .ok variant ↔ variant ∈ variants ∧ variant.key = key := by
  rw [← find?_key_eq_some_iff hnodup, findVariant]
  cases variants.find? (·.key == key) with
  | none => exact iff_of_false (fun h => by cases h) fun h => by cases h
  | some other => rw [Except.ok.injEq, Option.some.injEq]

theorem readChoice_string (variants : List (Variant α)) (levels : Nat) (key : String) :
    readChoice variants levels (Value.string key).tree =
      findVariant variants key >>= Variant.bare := by
  cases levels <;> rfl

theorem readChoice_member (variants : List (Variant α)) (levels : Nat) (key : String)
    (w : Value) :
    readChoice variants (levels + 1) (Value.object [(key, w)]).tree =
      findVariant variants key >>= fun variant => variant.content levels w.tree := by
  change findVariant variants key >>= _ = findVariant variants key >>= _
  refine congrArg _ (funext fun variant => ?_)
  cases variant.content levels w.tree <;> rfl

/-- **A choice is read** from the bare name of a variant or from an object with nothing but the
content of one. -/
theorem readChoice_eq_ok_iff (hnodup : (variants.map Variant.key).Nodup) {v : Value}
    (hv : v.depth ≤ levels) :
    readChoice variants levels v.tree = .ok x ↔
      ∃ variant ∈ variants,
        (v = .string variant.key ∧ variant.bare = .ok x) ∨
          ∃ w, v = .object [(variant.key, w)] ∧
            variant.content (levels - 1) w.tree = .ok x := by
  match v with
  | .string key =>
    rw [readChoice_string, bind_eq_ok_iff]
    simp only [findVariant_eq_ok_iff hnodup]
    constructor
    · rintro ⟨variant, ⟨hvariant, rfl⟩, hbare⟩
      exact ⟨variant, hvariant, .inl ⟨rfl, hbare⟩⟩
    · rintro ⟨variant, hvariant, ⟨hkey, hbare⟩ | ⟨w, hobject, -⟩⟩
      · exact ⟨variant, ⟨hvariant, (Value.string.inj hkey).symm⟩, hbare⟩
      · cases hobject
  | .object [(key, w)] =>
    cases levels with
    | zero => exact absurd hv (Nat.not_succ_le_zero _)
    | succ levels =>
      rw [readChoice_member, bind_eq_ok_iff]
      simp only [findVariant_eq_ok_iff hnodup]
      constructor
      · rintro ⟨variant, ⟨hvariant, rfl⟩, hcontent⟩
        exact ⟨variant, hvariant, .inr ⟨w, rfl, hcontent⟩⟩
      · rintro ⟨variant, hvariant, ⟨hkey, -⟩ | ⟨w', hobject, hcontent⟩⟩
        · cases hkey
        · cases hobject
          exact ⟨variant, ⟨hvariant, rfl⟩, hcontent⟩
  | .null | .bool _ | .number _ | .array _ | .object [] =>
    refine iff_of_false (fun h => ?_) ?_
    · cases levels <;> cases h
    · rintro ⟨_, _, ⟨h, _⟩ | ⟨_, h, _⟩⟩ <;> cases h
  | .object ((key, w) :: member :: members) =>
    -- the object goes on after its first member
    refine iff_of_false ?_ ?_
    · cases levels with
      | zero => exact fun h => by cases h
      | succ levels =>
        change ¬ (findVariant variants key >>= _) = _
        rw [bind_eq_ok_iff]
        rintro ⟨variant, -, hrest⟩
        obtain ⟨value, -, hrest⟩ := bind_eq_ok_iff.mp hrest
        cases hrest
    · rintro ⟨_, _, ⟨h, _⟩ | ⟨_, h, _⟩⟩ <;> cases h

/-- The value is the word of the thing, alone or as the key of `null`. -/
def IsKeyword (word : α → String) (a : α) (v : Value) : Prop :=
  v = .string (word a) ∨ v = .object [(word a, .null)]

/-- **A keyword is read** from a choice of variants without content. -/
theorem reads_keyword {all : List α} {word : α → String} (hall : ∀ a, a ∈ all)
    (hnodup : (all.map word).Nodup) (levels : Nat) :
    Reads (readChoice (all.map fun a => .plain (word a) a) levels) (IsKeyword word) levels := by
  intro v hv a
  have hkeys : (all.map fun a => Variant.plain (word a) a).map Variant.key = all.map word := by
    rw [List.map_map]
    rfl
  have hcontent : ∀ (b : α) (w : Value),
      (Variant.plain (word b) b).content (levels - 1) w.tree = .ok a ↔ w = .null ∧ b = a := by
    intro b w
    cases w with
    | null => exact ⟨fun h => ⟨rfl, Except.ok.inj h⟩, fun ⟨_, h⟩ => congrArg Except.ok h⟩
    | _ =>
      refine iff_of_false (fun h => ?_) fun ⟨h, _⟩ => by cases h
      obtain ⟨_, hunit, -⟩ := bind_eq_ok_iff.mp h
      simp only [Value.tree, readNull, Tree.unexpected_ne_ok] at hunit
  rw [readChoice_eq_ok_iff (hkeys ▸ hnodup) hv]
  constructor
  · rintro ⟨variant, hvariant, hcase⟩
    obtain ⟨b, -, rfl⟩ := List.mem_map.mp hvariant
    obtain ⟨hword, hbare⟩ | ⟨w, hobject, hread⟩ := hcase
    · obtain rfl := Except.ok.inj hbare
      exact .inl hword
    · obtain ⟨rfl, rfl⟩ := (hcontent b w).mp hread
      exact .inr hobject
  · intro hword
    refine ⟨_, List.mem_map_of_mem (hall a), ?_⟩
    obtain hword | hobject := hword
    · exact .inl ⟨hword, rfl⟩
    · exact .inr ⟨.null, hobject, (hcontent a .null).mpr ⟨rfl, rfl⟩⟩

end Choices

end BridgeNames.Json
