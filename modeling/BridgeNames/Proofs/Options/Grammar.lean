import BridgeNames.Options.Read
import BridgeNames.Proofs.Descriptor.Schema
import Mathlib.Data.Set.List

/-!
# The grammar of options

Which JSON values give options, and which options they give: an object of switches, none of them
twice, or an array of at most two truth values. `BridgeNames.NamingOptions.IsSetBy` spells this out,
with the defaults of what is not given, and
`BridgeNames.NamingOptions.ofText_eq_ok_iff_isSetBy` says that a text is read just so. The depth of
the value does not matter, as a value that opens more than one level is refused before it is looked
into.

On the way there the options have a schema like that of a description
(`BridgeNames.NamingOptions.IsDescribedBy`). What is different is that it has no place for a member
of another key. Descriptions are read as if such members were not there
(`BridgeNames.SkipsUnknown`).
-/

namespace BridgeNames

open Json

/-! ### Members of different keys -/

section Lookup

variable {members members' : List (String × Value)} {key : String} {w : Value}

/-- Where no key comes twice a member is found by its key. -/
theorem lookup_eq_some_iff_mem (h : (members.map Prod.fst).Nodup) :
    members.lookup key = some w ↔ (key, w) ∈ members := by
  induction members with
  | nil => simp
  | cons member members ih =>
    obtain ⟨other, w'⟩ := member
    obtain ⟨hother, hrest⟩ := List.nodup_cons.mp h
    rw [List.lookup_cons, List.mem_cons, Prod.mk.injEq]
    by_cases hkey : key = other
    · subst hkey
      have hnone : (key, w) ∉ members := fun hmem =>
        hother (List.mem_map.mpr ⟨_, hmem, rfl⟩)
      simp only [BEq.rfl, Option.some.injEq, true_and, hnone, or_false, eq_comm]
    · simp only [beq_eq_false_iff_ne.mpr hkey, ih hrest, hkey, false_and, false_or]

/-- Where no key comes twice the order of members does not matter to what is found. -/
theorem lookup_eq_of_perm (hperm : members.Perm members') (h : (members.map Prod.fst).Nodup) :
    members.lookup key = members'.lookup key := by
  have h' : (members'.map Prod.fst).Nodup := (hperm.map Prod.fst).nodup_iff.mp h
  refine Option.ext fun w => ?_
  rw [lookup_eq_some_iff_mem h, lookup_eq_some_iff_mem h', hperm.mem_iff]

end Lookup

/-! ### The schema of options -/

namespace NamingOptions

/-- The keys of the options. -/
def keys : List String := ["exactMethodNames", "cacheTypeNames"]

/-- The members give the options. -/
def IsGivenBy (o : NamingOptions) (members : List (String × Value)) : Prop :=
  MayHaveMember members "exactMethodNames" (o.exactMethodNames = false)
      (IsBool o.exactMethodNames) ∧
    MayHaveMember members "cacheTypeNames" (o.cacheTypeNames = true) (IsBool o.cacheTypeNames)

/-- **The value describes the options**: its members give them, and there are no others. -/
def IsDescribedBy (o : NamingOptions) (v : Value) : Prop :=
  ∃ members, GivesMembers keys v members ∧ (∀ key ∈ members.map Prod.fst, key ∈ keys) ∧
    o.IsGivenBy members

/-- The fields of the options, with the parts that they set. -/
def entries : List (Entry NamingOptions) := [
  .defaulted "exactMethodNames" readBool (fun b o => { o with exactMethodNames := b })
    (·.exactMethodNames) IsBool,
  .defaulted "cacheTypeNames" readBool (fun b o => { o with cacheTypeNames := b })
    (·.cacheTypeNames) IsBool]

theorem lawful (levels : Nat) : record.Lawful entries levels where
  fields_eq := rfl
  nodup := by
    change keys.Nodup
    decide
  fills := by
    simp only [entries, List.forall_mem_cons]
    exact ⟨Entry.fills_defaulted (reads_bool levels), Entry.fills_defaulted (reads_bool levels),
      by simp⟩
  get_put := by
    simp only [entries, List.forall_mem_cons]
    exact ⟨fun _ _ => rfl, fun _ _ => rfl, by simp⟩
  get_put_of_ne := by
    intro e he e' he' hne a x
    simp only [entries, List.mem_cons, List.not_mem_nil, or_false] at he he'
    rcases he with rfl | rfl <;> rcases he' with rfl | rfl <;>
      first | exact absurd rfl hne | rfl
  ext := by
    rintro ⟨_, _⟩ ⟨_, _⟩ h
    simp only [entries, List.forall_mem_cons] at h
    obtain ⟨hexact, hcache, -⟩ := h
    cases hexact
    cases hcache
    rfl

/-- **The reader of options takes just what describes them.** Whatever the depth of the value, one
level is enough. -/
theorem reads (levels : Nat) {v : Value} {o : NamingOptions} :
    NamingOptions.read (levels + 1) v.tree = .ok o ↔ o.IsDescribedBy v := by
  have hrefuses : record.refusesUnknown = true := rfl
  have hkeys : entries.map Entry.key = keys := rfl
  refine ((lawful v.depth).reads_known {} v (Nat.le_succ _) o).trans ?_
  simp only [hrefuses, true_imp_iff, hkeys]
  simp only [entries, List.forall_mem_cons, isGiven_defaulted, List.not_mem_nil,
    IsEmpty.forall_iff, implies_true, and_true]
  rfl

theorem ofText_eq_ok_iff_isDescribedBy {v : Value} {text : String} (h : v.IsText text)
    {o : NamingOptions} : ofText text = .ok o ↔ o.IsDescribedBy v := by
  have hreads : NamingOptions.read levelLimit v.tree = .ok o ↔ o.IsDescribedBy v :=
    reads (levelLimit - 1)
  rw [← hreads, ofText, readText_of_isText _ h]
  cases NamingOptions.read levelLimit v.tree with
  | error e => exact iff_of_false (fun h => by cases h) fun h => by cases h
  | ok o' => exact ⟨fun h => congrArg _ (Except.ok.inj h), fun h => congrArg _ (Except.ok.inj h)⟩

/-- No key comes twice where none of the known ones does and there are no others. -/
theorem nodup_keys {members : List (String × Value)}
    (honce : ∀ key ∈ keys, (members.map Prod.fst).count key ≤ 1)
    (hknown : ∀ key ∈ members.map Prod.fst, key ∈ keys) : (members.map Prod.fst).Nodup := by
  refine List.nodup_iff_count_le_one.mpr fun key => ?_
  by_cases hkey : key ∈ keys
  · exact honce key hkey
  · rw [List.count_eq_zero.mpr fun hmem => hkey (hknown key hmem)]
    exact Nat.zero_le 1

/-- **The order of members does not matter.** -/
theorem IsDescribedBy.perm {o : NamingOptions} {members members' : List (String × Value)}
    (h : o.IsDescribedBy (.object members)) (hperm : members.Perm members') :
    o.IsDescribedBy (.object members') := by
  obtain ⟨_, ⟨honce⟩, hknown, hgiven⟩ := h
  have hkeys := hperm.map Prod.fst
  refine ⟨members', .object fun key hkey => ?_, fun key hkey => ?_, ?_⟩
  · rw [← hkeys.count_eq]
    exact honce key hkey
  · exact hknown key (hkeys.mem_iff.mpr hkey)
  · simpa only [IsGivenBy, MayHaveMember, lookup_eq_of_perm hperm (nodup_keys honce hknown)]
      using hgiven

/-! ### The grammar -/

/-- Switches as the members of an object. -/
def switches (flags : List (String × Bool)) : List (String × Value) :=
  flags.map fun flag => (flag.1, .bool flag.2)

/-- **The value sets the options.** An object gives each of the two switches at most once and
nothing else, in any order; an array gives them in their order and may stop early. What is not given
is as it is by default. -/
inductive IsSetBy : NamingOptions → Value → Prop
  | object {flags : List (String × Bool)} (hknown : ∀ flag ∈ flags, flag.1 ∈ keys)
      (honce : (flags.map Prod.fst).Nodup) :
      IsSetBy
        { exactMethodNames := (flags.lookup "exactMethodNames").getD false
          cacheTypeNames := (flags.lookup "cacheTypeNames").getD true }
        (.object (switches flags))
  | array {flags : List Bool} (h : flags.length ≤ 2) :
      IsSetBy { exactMethodNames := flags[0]?.getD false, cacheTypeNames := flags[1]?.getD true }
        (.array (flags.map .bool))

section Switches

variable {flags : List (String × Bool)}

theorem map_fst_switches : (switches flags).map Prod.fst = flags.map Prod.fst := by
  rw [switches, List.map_map]
  rfl

theorem lookup_switches {key : String} :
    (switches flags).lookup key = (flags.lookup key).map .bool := by
  induction flags with
  | nil => rfl
  | cons flag flags ih =>
    obtain ⟨other, b⟩ := flag
    rw [switches, List.map_cons, List.lookup_cons, List.lookup_cons]
    cases key == other with
    | true => rfl
    | false => exact ih

/-- A switch is as it is given, or else as it is by default. -/
theorem mayHaveMember_switches {key : String} {b default : Bool} :
    MayHaveMember (switches flags) key (b = default) (IsBool b) ↔
      b = (flags.lookup key).getD default := by
  rw [MayHaveMember, lookup_switches]
  cases flags.lookup key with
  | none => rfl
  | some b' =>
    change Value.bool b' = .bool b ↔ b = b'
    rw [Value.bool.injEq, eq_comm]

/-- **Switches give the options whose parts are the switches or the defaults.** -/
theorem isGivenBy_switches {o : NamingOptions} :
    o.IsGivenBy (switches flags) ↔
      o = { exactMethodNames := (flags.lookup "exactMethodNames").getD false
            cacheTypeNames := (flags.lookup "cacheTypeNames").getD true } := by
  rw [IsGivenBy, mayHaveMember_switches, mayHaveMember_switches]
  obtain ⟨exact, cache⟩ := o
  rw [NamingOptions.mk.injEq]

end Switches

/-- Members of known keys that give options are switches. -/
theorem exists_switches {o : NamingOptions} {members : List (String × Value)}
    (hnodup : (members.map Prod.fst).Nodup) (hknown : ∀ key ∈ members.map Prod.fst, key ∈ keys)
    (hgiven : o.IsGivenBy members) : ∃ flags, switches flags = members := by
  have hrange : members ∈ Set.range switches := by
    rw [show switches = List.map _ from rfl, Set.range_list_map]
    rintro ⟨key, w⟩ hmember
    have hlookup := (lookup_eq_some_iff_mem hnodup).mpr hmember
    obtain ⟨hexact, hcache⟩ := hgiven
    have hkey := hknown key (List.mem_map.mpr ⟨_, hmember, rfl⟩)
    rcases List.mem_pair.mp hkey with rfl | rfl
    · rw [MayHaveMember, hlookup] at hexact
      exact ⟨(_, _), congrArg _ (Eq.symm hexact)⟩
    · rw [MayHaveMember, hlookup] at hcache
      exact ⟨(_, _), congrArg _ (Eq.symm hcache)⟩
  exact hrange

theorem isDescribedBy_object {o : NamingOptions} {members : List (String × Value)} :
    o.IsDescribedBy (.object members) ↔ o.IsSetBy (.object members) := by
  constructor
  · rintro ⟨_, ⟨honce⟩, hknown, hgiven⟩
    have hnodup := nodup_keys honce hknown
    obtain ⟨flags, rfl⟩ := exists_switches hnodup hknown hgiven
    rw [map_fst_switches] at hnodup hknown
    rw [isGivenBy_switches.mp hgiven]
    exact .object (List.forall_mem_map.mp hknown) hnodup
  · intro h
    generalize hv : Value.object members = v at h
    cases h with
    | array _ => cases hv
    | @object flags hknown honce =>
      obtain rfl := Value.object.inj hv
      refine ⟨_, .object fun key _ => ?_, ?_, isGivenBy_switches.mpr rfl⟩
      · rw [map_fst_switches]
        exact List.nodup_iff_count_le_one.mp honce key
      · rw [map_fst_switches]
        exact List.forall_mem_map.mpr hknown

/-- **Truth values are given to the keys in their order.** -/
theorem isGivenBy_zip {o : NamingOptions} {flags : List Bool} :
    o.IsGivenBy (keys.zip (flags.map .bool)) ↔
      o = { exactMethodNames := flags[0]?.getD false, cacheTypeNames := flags[1]?.getD true } := by
  have hzip : keys.zip (flags.map .bool) = switches (keys.zip flags) := by
    rw [List.zip_map_right]
    rfl
  have hexact : (keys.zip flags).lookup "exactMethodNames" = flags[0]? := by
    match flags with
    | [] | [_] | _ :: _ :: _ => rfl
  have hcache : (keys.zip flags).lookup "cacheTypeNames" = flags[1]? := by
    match flags with
    | [] | [_] | _ :: _ :: _ => rfl
  rw [hzip, isGivenBy_switches, hexact, hcache]

/-- Items that give options to the keys are truth values. -/
theorem exists_flags {o : NamingOptions} {items : List Value} (hlength : items.length ≤ keys.length)
    (hgiven : o.IsGivenBy (keys.zip items)) : ∃ flags : List Bool, flags.map .bool = items := by
  have hnodup : ((keys.zip items).map Prod.fst).Nodup := by
    rw [List.zip_eq_zip_take_min, Nat.min_eq_right hlength, List.map_fst_zip (by simp)]
    exact List.Nodup.sublist (List.take_sublist ..) (by decide)
  have hknown : ∀ key ∈ (keys.zip items).map Prod.fst, key ∈ keys := by
    rw [List.forall_mem_map]
    exact fun _ hmember => (List.of_mem_zip hmember).1
  obtain ⟨flags, hflags⟩ := exists_switches hnodup hknown hgiven
  refine ⟨flags.map Prod.snd, ?_⟩
  rw [← List.map_snd_zip hlength, ← hflags, switches, List.map_map, List.map_map]
  rfl

theorem isDescribedBy_array {o : NamingOptions} {items : List Value} :
    o.IsDescribedBy (.array items) ↔ o.IsSetBy (.array items) := by
  constructor
  · rintro ⟨_, hgives, -, hgiven⟩
    cases hgives with
    | array hlength =>
      obtain ⟨flags, rfl⟩ := exists_flags hlength hgiven
      rw [isGivenBy_zip.mp hgiven]
      rw [List.length_map] at hlength
      exact .array hlength
  · intro h
    generalize hv : Value.array items = v at h
    cases h with
    | object _ _ => cases hv
    | @array flags hlength =>
      obtain rfl := Value.array.inj hv
      refine ⟨_, .array ?_, ?_, isGivenBy_zip.mpr rfl⟩
      · rwa [List.length_map]
      · rw [List.forall_mem_map]
        exact fun _ hmember => (List.of_mem_zip hmember).1

/-- **The schema of options says what the grammar says.** -/
theorem isDescribedBy_iff_isSetBy {o : NamingOptions} {v : Value} :
    o.IsDescribedBy v ↔ o.IsSetBy v := by
  cases v with
  | object members => exact isDescribedBy_object
  | array items => exact isDescribedBy_array
  | _ => exact iff_of_false (fun ⟨_, hgives, _⟩ => by cases hgives) fun h => by cases h

end NamingOptions

/-! ### Members of unknown keys in descriptions -/

/-- **What is read does not depend on members of other keys** than the given ones in the object at a
certain place: such a member is skipped. It is so wherever the description stands in a text, however
many levels are left to it there, and in a text that has nothing else. -/
def SkipsUnknown {α : Type} (read : Nat → Reader α) (place : Value → Value) (keys : List String) :
    Prop :=
  ∀ (before after : List (String × Value)) (key : String) (w : Value), key ∉ keys →
    (∀ levels, read levels (place (.object (before ++ (key, w) :: after))).tree =
      read levels (place (.object (before ++ after))).tree) ∧
    ∀ text text' : String, (place (.object (before ++ (key, w) :: after))).IsText text →
      (place (.object (before ++ after))).IsText text' → readText read text = readText read text'

section SkipsUnknown

variable {α : Type} {read : Nat → Reader α} {place : Value → Value} {keys : List String}

/-- Texts are read with the levels that there are at the start. -/
theorem skipsUnknown_of_levels
    (h : ∀ levels before after key w, key ∉ keys →
      read levels (place (.object (before ++ (key, w) :: after))).tree =
        read levels (place (.object (before ++ after))).tree) :
    SkipsUnknown read place keys := by
  refine fun before after key w hkey => ⟨fun levels => h levels before after key w hkey, ?_⟩
  intro text text' htext htext'
  rw [readText_of_isText read htext, readText_of_isText read htext']
  exact h levelLimit before after key w hkey

theorem DeclaredType.skipsUnknown : SkipsUnknown DeclaredType.read id DeclaredType.keys := by
  refine skipsUnknown_of_levels fun levels before after key w hkey => ?_
  cases levels with
  | zero => rfl
  | succ levels =>
    have hrecord := (DeclaredDraft.record (DeclaredType.read levels)).read_insert rfl hkey
    exact congrArg (DeclaredDraft.type <$> ·) (hrecord .blank w before after)

theorem Parameter.skipsUnknown : SkipsUnknown Parameter.read id ["name", "type"] := by
  refine skipsUnknown_of_levels fun levels before after key w hkey => ?_
  cases levels with
  | zero => rfl
  | succ levels => exact (Parameter.record levels).read_insert rfl hkey _ w before after

theorem Method.skipsUnknown : SkipsUnknown Method.read id Method.keys := by
  refine skipsUnknown_of_levels fun levels before after key w hkey => ?_
  cases levels with
  | zero => rfl
  | succ levels => exact (Method.record levels).read_insert rfl hkey _ w before after

namespace TypeUse

/-- A use skips members in the content of a variant if a choice does so, however what stands
further in is read. -/
theorem skipsUnknown_of_content {variant : String}
    (h : ∀ readInner levels before after key w, key ∉ keys →
      readChoice (variants readInner) levels
          (Value.object [(variant, .object (before ++ (key, w) :: after))]).tree =
        readChoice (variants readInner) levels
          (Value.object [(variant, .object (before ++ after))]).tree) :
    SkipsUnknown TypeUse.read (fun content => .object [(variant, content)]) keys := by
  refine skipsUnknown_of_levels fun levels before after key w hkey => ?_
  match levels with
  | 0 | 1 => exact h _ _ before after key w hkey
  | levels + 2 => exact h (TypeUse.read levels) (levels + 2) before after key w hkey

theorem skipsUnknown_declared :
    SkipsUnknown TypeUse.read (fun type => .object [("declared", type)]) DeclaredType.keys := by
  refine skipsUnknown_of_content fun readInner levels before after key w hkey => ?_
  cases levels with
  | zero => rfl
  | succ levels =>
    rw [readChoice_member, readChoice_member]
    have htype := (DeclaredType.skipsUnknown before after key w hkey).1 levels
    exact congrArg (declared <$> ·) htype

theorem skipsUnknown_array :
    SkipsUnknown TypeUse.read (fun layer => .object [("array", layer)])
      ["element", "dimensions"] := by
  refine skipsUnknown_of_content fun readInner levels before after key w hkey => ?_
  match levels with
  | 0 | 1 => rfl
  | levels + 2 =>
    rw [readChoice_member, readChoice_member]
    have hrecord := (arrayRecord readInner).read_insert rfl hkey (blank, 0) w before after
    exact congrArg ((fun layer => array layer.1 layer.2) <$> ·) hrecord

theorem skipsUnknown_typeVariable :
    SkipsUnknown TypeUse.read (fun bound => .object [("typeVariable", bound)])
      ["upperBound"] := by
  refine skipsUnknown_of_content fun readInner levels before after key w hkey => ?_
  match levels with
  | 0 | 1 => rfl
  | levels + 2 =>
    rw [readChoice_member, readChoice_member]
    have hrecord := (variableRecord readInner).read_insert rfl hkey blank w before after
    exact congrArg (typeVariable <$> ·) hrecord

end TypeUse

end SkipsUnknown

/-! ### Texts -/

namespace NamingOptions

/-- A text that gives no options is refused as invalid. -/
theorem eq_invalid_of_ofText_eq_error {text : String} {error : OptionsError}
    (h : ofText text = .error error) : ∃ cause, error = .invalid cause := by
  rw [ofText] at h
  cases hread : readText NamingOptions.read text with
  | error cause =>
    rw [hread] at h
    exact ⟨cause, (Except.error.inj h).symm⟩
  | ok o =>
    rw [hread] at h
    cases h

/-- **Some values that set no options**: `null`, or an object with `null` for a switch, with a
member of another key or with a key that comes twice, or an array that is too long. -/
inductive IsRefused : Value → Prop
  | null : IsRefused .null
  | nullMember {members : List (String × Value)} {key : String} (h : (key, .null) ∈ members) :
      IsRefused (.object members)
  | unknown {members : List (String × Value)} {key : String} (hkey : key ∈ members.map Prod.fst)
      (hunknown : key ∉ keys) : IsRefused (.object members)
  | repeated {members : List (String × Value)} (h : ¬(members.map Prod.fst).Nodup) :
      IsRefused (.object members)
  | longer {items : List Value} (h : 2 < items.length) : IsRefused (.array items)

theorem IsRefused.not_isSetBy {v : Value} (h : IsRefused v) (o : NamingOptions) :
    ¬o.IsSetBy v := by
  intro hset
  cases hset with
  | object hknown honce =>
    cases h with
    | nullMember hmember =>
      obtain ⟨_, -, hsame⟩ := List.mem_map.mp hmember
      cases hsame
    | unknown hkey hunknown =>
      rw [map_fst_switches] at hkey
      obtain ⟨flag, hflag, rfl⟩ := List.mem_map.mp hkey
      exact hunknown (hknown flag hflag)
    | repeated htwice =>
      rw [map_fst_switches] at htwice
      exact htwice honce
  | array hlength =>
    cases h with
    | longer hlong =>
      rw [List.length_map] at hlong
      omega

/-- **Options are read by their grammar.** Of the texts of a value

* just those give options whose value sets them, and they give these options;
* any other is refused as invalid, in particular one of a value with `null`, a member of another
  key, a key that comes twice or an item too many;
* those of an object give the same options whatever the order of its members.

Descriptions, on the other hand, are read as if members of other keys than their own were not
there. -/
theorem ofText_eq_ok_iff_isSetBy {v : Value} {text : String} (h : v.IsText text) :
    (∀ o, ofText text = .ok o ↔ o.IsSetBy v) ∧
    (∀ error, ofText text = .error error → ∃ cause, error = .invalid cause) ∧
    (IsRefused v → ∃ cause, ofText text = .error (.invalid cause)) ∧
    (∀ members members' text', v = .object members → members.Perm members' →
      (Value.object members').IsText text' → ∀ o, ofText text' = .ok o ↔ ofText text = .ok o) ∧
    SkipsUnknown DeclaredType.read id DeclaredType.keys ∧
    SkipsUnknown Parameter.read id ["name", "type"] ∧
    SkipsUnknown Method.read id Method.keys ∧
    SkipsUnknown TypeUse.read (fun type => .object [("declared", type)]) DeclaredType.keys ∧
    SkipsUnknown TypeUse.read (fun layer => .object [("array", layer)])
      ["element", "dimensions"] ∧
    SkipsUnknown TypeUse.read (fun bound => .object [("typeVariable", bound)])
      ["upperBound"] := by
  refine ⟨?grammar, fun _ => eq_invalid_of_ofText_eq_error, ?refused, ?order,
    DeclaredType.skipsUnknown, Parameter.skipsUnknown, Method.skipsUnknown,
    TypeUse.skipsUnknown_declared, TypeUse.skipsUnknown_array, TypeUse.skipsUnknown_typeVariable⟩
  case grammar =>
    exact fun o => (ofText_eq_ok_iff_isDescribedBy h).trans isDescribedBy_iff_isSetBy
  case refused =>
    intro hrefused
    cases hread : ofText text with
    | error error =>
      obtain ⟨cause, rfl⟩ := eq_invalid_of_ofText_eq_error hread
      exact ⟨cause, rfl⟩
    | ok o =>
      have hset := isDescribedBy_iff_isSetBy.mp ((ofText_eq_ok_iff_isDescribedBy h).mp hread)
      exact absurd hset (hrefused.not_isSetBy o)
  case order =>
    rintro members members' text' rfl hperm htext' o
    rw [ofText_eq_ok_iff_isDescribedBy htext', ofText_eq_ok_iff_isDescribedBy h]
    exact ⟨fun hmembers' => hmembers'.perm hperm.symm, fun hmembers => hmembers.perm hperm⟩

/-- Both switches in the other order are read, and a misspelt one is refused. -/
theorem ofText_of_switches_reversed :
    ofText "\x7b\"cacheTypeNames\":false,\"exactMethodNames\":true\x7d" =
        .ok { exactMethodNames := true, cacheTypeNames := false } ∧
      ∃ cause, ofText "\x7b\"exactMethodName\":true\x7d" = .error (.invalid cause) := by
  let flags := [("cacheTypeNames", false), ("exactMethodNames", true)]
  let v : Value := .object (switches flags)
  let misspelt : Value := .object [("exactMethodName", .bool true)]
  have htext : v.IsText (String.ofList v.toText) := v.isText_toText ⟨trivial, trivial, trivial⟩
  have hmisspelt : misspelt.IsText (String.ofList misspelt.toText) :=
    misspelt.isText_toText ⟨trivial, trivial⟩
  have hset : IsSetBy _ v := @IsSetBy.object flags (by decide) (by decide)
  have hrefused : IsRefused misspelt := .unknown (List.mem_singleton_self _) (by decide)
  exact ⟨((ofText_eq_ok_iff_isSetBy htext).1 _).mpr hset,
    (ofText_eq_ok_iff_isSetBy hmisspelt).2.2.1 hrefused⟩

end NamingOptions

end BridgeNames
