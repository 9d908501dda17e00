import BridgeNames.Json.Record
import BridgeNames.Proofs.Json.Parsing
import Mathlib.Data.List.Nodup

/-!
# What a record is filled with

A record is read field by field, in the order in which its members stand. What comes out does not
depend on that order: each field of the result shows what the member of its key says, and is as it
was at the start where there is no such member. `BridgeNames.Json.Filled` says so, field by field
and with no order in it; `BridgeNames.Json.Entry.IsGiven` adds that there has to be a member where a
field has no default. `BridgeNames.Json.Record.Lawful.reads` is the statement that a record
is read into exactly the values that are given so, and
`BridgeNames.Json.Record.Lawful.reads_known` the one for a record that refuses other members.

For this the fields have to be independent. An `Entry` joins a field to the part of the value that
it sets: a way to get that part, a way to put one in, and the shape that the part is read from. The
laws are those of getting and putting, for one entry and for two different ones, and that the parts
make up the value.

The array form gives the same as the object form whose members have the keys in their own order, so
both are put as members of a record (`BridgeNames.Json.GivesMembers`).
-/

namespace BridgeNames.Json

/-! ### Readers and the shapes they read -/

/-- A reading in two steps comes to a value if both steps do. -/
theorem bind_eq_ok_iff {ε α β : Type} {first : Except ε α} {second : α → Except ε β} {b : β} :
    first >>= second = .ok b ↔ ∃ a, first = .ok a ∧ second a = .ok b := by
  cases first with
  | error e => exact iff_of_false (fun h => by cases h) fun ⟨_, h, _⟩ => by cases h
  | ok a => exact ⟨fun h => ⟨a, rfl, h⟩, fun ⟨_, h, hsecond⟩ => Except.ok.inj h ▸ hsecond⟩

/-- What is read is made into something else. -/
theorem map_eq_ok_iff {ε α β : Type} {f : α → β} {first : Except ε α} {b : β} :
    f <$> first = .ok b ↔ ∃ a, first = .ok a ∧ f a = b := by
  cases first with
  | error e => exact iff_of_false (fun h => by cases h) fun ⟨_, h, _⟩ => by cases h
  | ok a => exact ⟨fun h => ⟨a, rfl, Except.ok.inj h⟩, fun ⟨_, h, hf⟩ => Except.ok.inj h ▸ hf ▸ rfl⟩

/-- Of things whose keys are all different the one of a key is found. -/
theorem find?_key_eq_some_iff {α : Type*} {key : α → String} {things : List α}
    (h : (things.map key).Nodup) {wanted : String} {thing : α} :
    things.find? (key · == wanted) = some thing ↔ thing ∈ things ∧ key thing = wanted := by
  constructor
  · intro hfound
    exact ⟨List.mem_of_find?_eq_some hfound, by simpa using List.find?_some hfound⟩
  · rintro ⟨hthing, rfl⟩
    cases hfound : things.find? (key · == key thing) with
    | none => simpa using List.find?_eq_none.mp hfound thing hthing
    | some other =>
      have hkey : key other = key thing := by simpa using List.find?_some hfound
      have hother := List.mem_of_find?_eq_some hfound
      rw [List.inj_on_of_nodup_map h hother hthing hkey]

/-- **A reader takes a tree for just the values of a shape**, as long as the tree is that of a JSON
value which opens no more than the given levels. -/
def Reads {α : Type} (reader : Reader α) (Shape : α → Value → Prop) (levels : Nat) : Prop :=
  ∀ v : Value, v.depth ≤ levels → ∀ a, reader v.tree = .ok a ↔ Shape a v

section Reads

variable {α β : Type} {reader : Reader α} {Shape Shape' : α → Value → Prop} {levels : Nat}

theorem Reads.congr (h : Reads reader Shape levels) (hshape : ∀ a v, Shape a v ↔ Shape' a v) :
    Reads reader Shape' levels :=
  fun v hv a => (h v hv a).trans (hshape a v)

/-- What is read can be made into something else. -/
theorem Reads.map (h : Reads reader Shape levels) (f : α → β) :
    Reads (fun tree => f <$> reader tree) (fun b v => ∃ a, Shape a v ∧ f a = b) levels := by
  intro v hv b
  simp only [map_eq_ok_iff, h v hv]

end Reads

theorem Number.unexpected_ne_ok {α : Type} (wanted : String) (n : Number) (a : α) :
    n.unexpected wanted ≠ .ok a := by
  cases n <;> exact fun h => by cases h

/-- A tree of another shape than the wanted one is never read. -/
theorem Tree.unexpected_ne_ok {α : Type} (wanted : String) (tree : Tree) (a : α) :
    tree.unexpected wanted ≠ .ok a := by
  cases tree with
  | number n => exact n.value.unexpected_ne_ok wanted a
  | string q =>
    intro h
    obtain ⟨s, -, h⟩ := bind_eq_ok_iff.mp h
    cases h
  | _ => exact fun h => by cases h

mutual

/-- A tree of a value is skipped over. -/
theorem Value.skipFault?_tree : (v : Value) → v.tree.skipFault? = none
  | .null | .bool _ | .number _ | .string _ => rfl
  | .array items => by rw [Value.tree, Tree.skipFault?, skipItems?_itemTrees items]; rfl
  | .object members => by rw [Value.tree, Tree.skipFault?, skipMembers?_memberTrees members]; rfl

theorem skipItems?_itemTrees : (items : List Value) → skipItems? (itemTrees items) = none
  | [] => rfl
  | item :: rest => by
    rw [itemTrees, skipItems?, item.skipFault?_tree, skipItems?_itemTrees rest]
    rfl

theorem skipMembers?_memberTrees :
    (members : List (String × Value)) → skipMembers? (memberTrees members) = none
  | [] => rfl
  | (key, value) :: rest => by
    rw [memberTrees, skipMembers?, value.skipFault?_tree, skipMembers?_memberTrees rest]
    rfl

end

/-! ### The two forms of a record -/

/-- **The members that a value gives to a record with the given keys.** An object gives its own, and
none of the keys twice; an array gives its items to the keys in their order. -/
inductive GivesMembers (keys : List String) : Value → List (String × Value) → Prop
  | object {members : List (String × Value)}
      (h : ∀ key ∈ keys, (members.map Prod.fst).count key ≤ 1) :
      GivesMembers keys (.object members) members
  | array {items : List Value} (h : items.length ≤ keys.length) :
      GivesMembers keys (.array items) (keys.zip items)

theorem GivesMembers.depth_pos {keys : List String} {v : Value} {members : List (String × Value)}
    (h : GivesMembers keys v members) : 0 < v.depth := by
  cases h with
  | object _ => exact Nat.succ_pos _
  | array _ => exact Nat.succ_pos _

/-! ### Entries -/

/-- A field of a record, with the part of the value that it sets. -/
structure Entry (δ : Type) where
  field : Field δ
  Part : Type
  get : δ → Part
  put : Part → δ → δ
  /-- The shape that the part is read from. -/
  Shape : Part → Value → Prop

namespace Entry

variable {α δ : Type}

/-- The key of the field. -/
def key (e : Entry δ) : String := e.field.key

/-- A field without a default. -/
def mandatory (key : String) (reader : Reader α) (put : α → δ → δ) (get : δ → α)
    (Shape : α → Value → Prop) : Entry δ :=
  ⟨.mandatory key reader put, α, get, put, Shape⟩

/-- A field with a default. -/
def defaulted (key : String) (reader : Reader α) (put : α → δ → δ) (get : δ → α)
    (Shape : α → Value → Prop) : Entry δ :=
  ⟨.defaulted key reader put, α, get, put, Shape⟩

/-- The field puts in just the parts of the shape. -/
def Fills (e : Entry δ) (levels : Nat) : Prop :=
  ∀ v : Value, v.depth ≤ levels → ∀ x y,
    e.field.fill v.tree x = .ok y ↔ ∃ a, e.Shape a v ∧ y = e.put a x

variable {reader : Reader α} {Shape : α → Value → Prop} {levels : Nat}

theorem fill_eq_ok_iff (h : Reads reader Shape levels) (put : α → δ → δ) {v : Value}
    (hv : v.depth ≤ levels) (x y : δ) :
    (do return put (← reader v.tree) x : Except ReadError δ) = .ok y ↔
      ∃ a, Shape a v ∧ y = put a x := by
  rw [bind_eq_ok_iff]
  simp only [h v hv]
  constructor
  · rintro ⟨a, ha, hok⟩
    exact ⟨a, ha, (Except.ok.inj hok).symm⟩
  · rintro ⟨a, ha, rfl⟩
    exact ⟨a, ha, rfl⟩

variable {key : String} {put : α → δ → δ} {get : δ → α}

theorem fills_mandatory (h : Reads reader Shape levels) :
    (mandatory key reader put get Shape).Fills levels :=
  fun _ hv x y => fill_eq_ok_iff h put hv x y

theorem fills_defaulted (h : Reads reader Shape levels) :
    (defaulted key reader put get Shape).Fills levels :=
  fun _ hv x y => fill_eq_ok_iff h put hv x y

end Entry

/-! ### Filling -/

section Filling

variable {δ : Type}

/-- **A value is another one, filled with members**: each part shows what the member of its key
says, and is the same as before where there is none. -/
def Filled (entries : List (Entry δ)) (members : List (String × Value)) (x y : δ) : Prop :=
  ∀ e ∈ entries,
    match members.lookup e.key with
    | none => e.get y = e.get x
    | some v => e.Shape (e.get y) v

/-- **The part of an entry is what members give it**: what the member of its key says or, where
there is none and the field has a default, what it was before. -/
def Entry.IsGiven (e : Entry δ) (members : List (String × Value)) (x y : δ) : Prop :=
  match members.lookup e.key with
  | none => e.field.required = false ∧ e.get y = e.get x
  | some v => e.Shape (e.get y) v

theorem isGiven_iff_filled {entries : List (Entry δ)} {members : List (String × Value)} {x y : δ} :
    (∀ e ∈ entries, e.IsGiven members x y) ↔
      (∀ e ∈ entries, e.field.required = true → (members.lookup e.key).isSome = true) ∧
        Filled entries members x y := by
  rw [Filled, ← forall₂_and]
  refine forall₂_congr fun e _ => ?_
  rw [Entry.IsGiven]
  cases members.lookup e.key with
  | none => simp
  | some v => simp

/-- Among the members there is one of the key, and its value is such. -/
def HasMember (members : List (String × Value)) (key : String) (IsPart : Value → Prop) : Prop :=
  ∃ v, members.lookup key = some v ∧ IsPart v

/-- If there is one of the key among the members, its value is such; if there is none, the other
thing holds. -/
def MayHaveMember (members : List (String × Value)) (key : String) (Otherwise : Prop)
    (IsPart : Value → Prop) : Prop :=
  match members.lookup key with
  | none => Otherwise
  | some v => IsPart v

/-- If the other thing cannot hold, there is a member. -/
theorem mayHaveMember_false {members : List (String × Value)} {key : String}
    {IsPart : Value → Prop} :
    MayHaveMember members key False IsPart ↔ HasMember members key IsPart := by
  rw [MayHaveMember, HasMember]
  cases members.lookup key with
  | none => simp
  | some v => simp

section Members

variable {α : Type} {key : String} {reader : Reader α} {put : α → δ → δ} {get : δ → α}
  {Shape : α → Value → Prop} {members : List (String × Value)} {x y : δ}

theorem isGiven_mandatory :
    (Entry.mandatory key reader put get Shape).IsGiven members x y ↔
      HasMember members key (Shape (get y)) := by
  change (match members.lookup key with
    | none => true = false ∧ get y = get x
    | some v => Shape (get y) v) ↔ _
  rw [HasMember]
  cases members.lookup key with
  | none => simp
  | some v => simp

theorem isGiven_defaulted :
    (Entry.defaulted key reader put get Shape).IsGiven members x y ↔
      MayHaveMember members key (get y = get x) (Shape (get y)) := by
  change (match members.lookup key with
    | none => false = false ∧ get y = get x
    | some v => Shape (get y) v) ↔ _
  rw [MayHaveMember]
  cases members.lookup key with
  | none => simp
  | some v => rfl

end Members

/-- **The entries of a record** whose parts may open the given levels, and the laws that make them
independent of one another. -/
structure Record.Lawful (r : Record δ) (entries : List (Entry δ)) (levels : Nat) : Prop where
  fields_eq : r.fields = entries.map Entry.field
  nodup : (entries.map Entry.key).Nodup
  fills : ∀ e ∈ entries, e.Fills levels
  get_put : ∀ e ∈ entries, ∀ a x, e.get (e.put a x) = a
  get_put_of_ne : ∀ e ∈ entries, ∀ e' ∈ entries, e.key ≠ e'.key →
    ∀ a x, e'.get (e.put a x) = e'.get x
  ext : ∀ x y, (∀ e ∈ entries, e.get x = e.get y) → x = y

variable {r : Record δ} {entries : List (Entry δ)} {levels : Nat} {e : Entry δ}
  {members rest : List (String × Value)} {v : Value} {x y : δ}

theorem lookup_eq_none {key : String} (h : key ∉ members.map Prod.fst) :
    members.lookup key = none := by
  rw [List.lookup_eq_none_iff]
  intro member hmember
  simpa using fun heq => h (List.mem_map.mpr ⟨member, hmember, Eq.symm heq⟩)

namespace Record.Lawful

/-- Two entries of one key are the same. -/
theorem eq_of_key (h : r.Lawful entries levels) {e' : Entry δ} (he : e ∈ entries)
    (he' : e' ∈ entries) (hkey : e.key = e'.key) : e = e' :=
  List.inj_on_of_nodup_map h.nodup he he' hkey

theorem find?_fields (h : r.Lawful entries levels) (he : e ∈ entries) :
    r.fields.find? (·.key == e.key) = some e.field := by
  have hfind : entries.find? (·.key == e.key) = some e :=
    (find?_key_eq_some_iff h.nodup).mpr ⟨he, rfl⟩
  rw [h.fields_eq, List.find?_map]
  exact congrArg (Option.map Entry.field) hfind

theorem find?_fields_eq_none (h : r.Lawful entries levels) {key : String}
    (hkey : key ∉ entries.map Entry.key) : r.fields.find? (·.key == key) = none := by
  rw [h.fields_eq, List.find?_eq_none]
  simp only [List.mem_map, forall_exists_index, and_imp, beq_iff_eq]
  rintro field e he rfl hfield
  exact hkey (List.mem_map.mpr ⟨e, he, hfield⟩)

/-- Without members nothing is changed. -/
theorem filled_nil (h : r.Lawful entries levels) : Filled entries [] x y ↔ y = x := by
  constructor
  · exact fun hfilled => h.ext y x hfilled
  · rintro rfl e -
    rfl

/-- A member of an unknown key changes nothing. -/
theorem filled_cons_of_unknown {key : String} (hkey : key ∉ entries.map Entry.key) :
    Filled entries ((key, v) :: rest) x y ↔ Filled entries rest x y := by
  refine forall₂_congr fun e he => ?_
  have hne : e.key ≠ key := fun heq => hkey (heq ▸ List.mem_map_of_mem he)
  rw [List.lookup_cons, beq_eq_false_iff_ne.mpr hne]

/-- **A member of a field that comes but once puts in its part**, and the members after it fill the
others. -/
theorem filled_cons (h : r.Lawful entries levels) (he : e ∈ entries)
    (hrest : e.key ∉ rest.map Prod.fst) (hv : v.depth ≤ levels) :
    Filled entries ((e.key, v) :: rest) x y ↔
      ∃ z, e.field.fill v.tree x = .ok z ∧ Filled entries rest z y := by
  have hself : ((e.key, v) :: rest).lookup e.key = some v := List.lookup_cons_self
  have hnone : rest.lookup e.key = none := lookup_eq_none hrest
  have hother : ∀ e' ∈ entries, e.key ≠ e'.key →
      ((e.key, v) :: rest).lookup e'.key = rest.lookup e'.key := fun e' _ hne => by
    rw [List.lookup_cons, beq_eq_false_iff_ne.mpr hne.symm]
  constructor
  · intro hfilled
    have hshape := hfilled e he
    rw [hself] at hshape
    refine ⟨e.put (e.get y) x, (h.fills e he v hv _ _).mpr ⟨_, hshape, rfl⟩, fun e' he' => ?_⟩
    by_cases hkey : e.key = e'.key
    · obtain rfl := h.eq_of_key he he' hkey
      rw [hnone]
      exact (h.get_put e he _ _).symm
    · have hpart := hfilled e' he'
      rw [hother e' he' hkey] at hpart
      rwa [h.get_put_of_ne e he e' he' hkey]
  · rintro ⟨z, hfill, hfilled⟩ e' he'
    obtain ⟨a, hshape, rfl⟩ := (h.fills e he v hv _ _).mp hfill
    have hpart := hfilled e' he'
    by_cases hkey : e.key = e'.key
    · obtain rfl := h.eq_of_key he he' hkey
      rw [hnone] at hpart
      rw [hself, hpart, h.get_put e he]
      exact hshape
    · rw [hother e' he' hkey]
      rwa [h.get_put_of_ne e he e' he' hkey] at hpart

end Record.Lawful

/-! ### Objects -/

/-- No key comes twice among members, nor at all if it has been seen before. -/
def NoneTwice (keys seen : List String) (members : List (String × Value)) : Prop :=
  ∀ key ∈ keys, (members.map Prod.fst).count key ≤ 1 ∧ (key ∈ seen → key ∉ members.map Prod.fst)

theorem noneTwice_cons_of_unknown {keys seen : List String} {key : String} (hkey : key ∉ keys) :
    NoneTwice keys seen ((key, v) :: rest) ↔ NoneTwice keys seen rest := by
  refine forall₂_congr fun other hother => ?_
  have hne : key ≠ other := fun heq => hkey (heq ▸ hother)
  rw [List.map_cons, List.count_cons_of_ne hne, List.mem_cons, or_iff_right (Ne.symm hne)]

theorem noneTwice_cons {keys seen : List String} {key : String} (hseen : key ∉ seen) :
    NoneTwice keys seen ((key, v) :: rest) ↔ NoneTwice keys (key :: seen) rest := by
  refine forall₂_congr fun other hother => ?_
  by_cases heq : key = other
  · subst heq
    have hcount : (rest.map Prod.fst).count key = 0 ↔ key ∉ rest.map Prod.fst :=
      List.count_eq_zero
    simp only [List.map_cons, List.count_cons_self, List.mem_cons, true_or, true_imp_iff, hseen,
      false_imp_iff, and_true, ← hcount]
    omega
  · rw [List.map_cons, List.count_cons_of_ne heq, List.mem_cons, or_iff_right (Ne.symm heq),
      List.mem_cons, or_iff_right (Ne.symm heq)]

namespace Record

section Steps

variable {field : Field δ} {key : String} {tree : Tree} {trees : List (Quotation × Tree)}
  {seen : List String}

theorem readMembers_cons_of_known (hfind : r.fields.find? (·.key == key) = some field)
    (hseen : key ∉ seen) :
    r.readMembers ((.text key, tree) :: trees) seen x =
      field.fill tree x >>= r.readMembers trees (key :: seen) := by
  simp only [readMembers, Quotation.read, bind, Except.bind, hfind, if_neg hseen]

theorem readMembers_cons_of_seen (hfind : r.fields.find? (·.key == key) = some field)
    (hseen : key ∈ seen) :
    r.readMembers ((.text key, tree) :: trees) seen x = refuse (.duplicateField key) := by
  simp only [readMembers, Quotation.read, bind, Except.bind, hfind, if_pos hseen]

theorem readMembers_cons_of_unknown (hfind : r.fields.find? (·.key == key) = none)
    (hrefuses : r.refusesUnknown = false) (hskip : tree.skipFault? = none) :
    r.readMembers ((.text key, tree) :: trees) seen x = r.readMembers trees seen x := by
  simp only [readMembers, Quotation.read, bind, Except.bind, hfind, hrefuses, hskip,
    Bool.false_eq_true, if_false]

theorem readMembers_cons_of_refused (hfind : r.fields.find? (·.key == key) = none)
    (hrefuses : r.refusesUnknown = true) :
    r.readMembers ((.text key, tree) :: trees) seen x =
      refuse (.unknownField key (r.fields.map (·.key))) := by
  simp only [readMembers, Quotation.read, bind, Except.bind, hfind, hrefuses, if_true]

theorem readItems_cons_nil (fields : List (Field δ)) (index : Nat) :
    r.readItems none (field :: fields) index (itemTrees []) x =
      if field.required then refuse (.wrongLength index r.wantedLength)
      else r.readItems none fields (index + 1) (itemTrees []) x :=
  rfl

theorem readItems_cons_cons (fields : List (Field δ)) (index : Nat) (items : List Value) :
    r.readItems none (field :: fields) index (itemTrees (v :: items)) x =
      field.fill v.tree x >>= r.readItems none fields (index + 1) (itemTrees items) :=
  rfl

end Steps

/-- An object is read once its members have been and no required field is missing. -/
theorem read_object_eq_ok_iff :
    r.read x (Value.object members).tree = .ok y ↔
      ∃ seen, r.readMembers (memberTrees members) [] x = .ok (seen, y) ∧
        (r.fields.find? fun field => field.required && !seen.contains field.key) = none := by
  rw [Value.tree, Record.read, bind_eq_ok_iff]
  constructor
  · rintro ⟨⟨seen, z⟩, hread, hrest⟩
    obtain ⟨-, -, hrest⟩ := bind_eq_ok_iff.mp hrest
    split at hrest
    · cases hrest
    · next hfind =>
      obtain rfl := Except.ok.inj hrest
      exact ⟨seen, hread, hfind⟩
  · rintro ⟨seen, hread, hfind⟩
    exact ⟨(seen, y), hread, by simp only [hfind]; rfl⟩

/-- A member of an unknown key is skipped, wherever it stands among the others and whatever its
value is. -/
theorem readMembers_insert (hopen : r.refusesUnknown = false) {key : String}
    (hfind : r.fields.find? (·.key == key) = none) {before after : List (String × Value)}
    {seen : List String} :
    r.readMembers (memberTrees (before ++ (key, v) :: after)) seen x =
      r.readMembers (memberTrees (before ++ after)) seen x := by
  induction before generalizing seen x with
  | nil => exact readMembers_cons_of_unknown hfind hopen v.skipFault?_tree
  | cons member before ih =>
    obtain ⟨other, w⟩ := member
    rw [List.cons_append, List.cons_append, memberTrees, memberTrees]
    cases hother : r.fields.find? (·.key == other) with
    | none =>
      rw [readMembers_cons_of_unknown hother hopen w.skipFault?_tree,
        readMembers_cons_of_unknown hother hopen w.skipFault?_tree, ih]
    | some field =>
      by_cases hseen : other ∈ seen
      · rw [readMembers_cons_of_seen hother hseen, readMembers_cons_of_seen hother hseen]
      · rw [readMembers_cons_of_known hother hseen, readMembers_cons_of_known hother hseen]
        exact bind_congr fun _ => ih

/-- **A record that refuses no members reads an object as if those of unknown keys were not
there.** -/
theorem read_insert (hopen : r.refusesUnknown = false) {key : String}
    (hkey : key ∉ r.fields.map Field.key) (x : δ) (v : Value)
    (before after : List (String × Value)) :
    r.read x (Value.object (before ++ (key, v) :: after)).tree =
      r.read x (Value.object (before ++ after)).tree := by
  have hfind : r.fields.find? (·.key == key) = none := by
    refine List.find?_eq_none.mpr fun field hfield hsame => hkey ?_
    exact List.mem_map.mpr ⟨field, hfield, by simpa using hsame⟩
  simp only [Value.tree, Record.read, readMembers_insert hopen hfind]

namespace Lawful

/-- **The members of an object are read** unless a key comes twice, or is one that the record
refuses; and then they have filled the value. -/
theorem readMembers_iff (h : r.Lawful entries levels) (hdepth : membersDepth members ≤ levels)
    {seen : List String} :
    (∃ seen', r.readMembers (memberTrees members) seen x = .ok (seen', y)) ↔
      (r.refusesUnknown = true → ∀ key ∈ members.map Prod.fst, key ∈ entries.map Entry.key) ∧
        NoneTwice (entries.map Entry.key) seen members ∧ Filled entries members x y := by
  induction members generalizing seen x with
  | nil =>
    rw [h.filled_nil, memberTrees, readMembers]
    have htwice : NoneTwice (entries.map Entry.key) seen [] := fun _ _ => ⟨Nat.zero_le _, by simp⟩
    constructor
    · rintro ⟨seen', hread⟩
      exact ⟨fun _ _ hkey => by simp at hkey, htwice, (Prod.mk.inj (Except.ok.inj hread)).2.symm⟩
    · rintro ⟨-, -, rfl⟩
      exact ⟨seen, rfl⟩
  | cons member rest ih =>
    obtain ⟨key, v⟩ := member
    obtain ⟨hv, hrest⟩ := Nat.max_le.mp hdepth
    rw [memberTrees]
    by_cases hkey : key ∈ entries.map Entry.key
    · obtain ⟨e, he, rfl⟩ := List.mem_map.mp hkey
      by_cases hseen : e.key ∈ seen
      · -- the second time is refused
        rw [readMembers_cons_of_seen (h.find?_fields he) hseen]
        refine iff_of_false (fun ⟨_, hread⟩ => by cases hread) fun ⟨_, htwice, _⟩ => ?_
        exact (htwice e.key hkey).2 hseen (List.mem_cons_self ..)
      · rw [readMembers_cons_of_known (h.find?_fields he) hseen, noneTwice_cons hseen]
        simp only [List.map_cons, List.forall_mem_cons, hkey, true_and, bind_eq_ok_iff]
        constructor
        · rintro ⟨seen', z, hfill, hread⟩
          obtain ⟨hknown, htwice, hfilled⟩ := (ih hrest).mp ⟨seen', hread⟩
          have honce := (htwice e.key hkey).2 (List.mem_cons_self ..)
          exact ⟨hknown, htwice, (h.filled_cons he honce hv).mpr ⟨z, hfill, hfilled⟩⟩
        · rintro ⟨hknown, htwice, hfilled⟩
          have honce := (htwice e.key hkey).2 (List.mem_cons_self ..)
          obtain ⟨z, hfill, hfilled⟩ := (h.filled_cons he honce hv).mp hfilled
          obtain ⟨seen', hread⟩ := (ih hrest).mpr ⟨hknown, htwice, hfilled⟩
          exact ⟨seen', z, hfill, hread⟩
    · rw [filled_cons_of_unknown hkey, noneTwice_cons_of_unknown hkey]
      cases hrefuses : r.refusesUnknown with
      | true =>
        rw [readMembers_cons_of_refused (h.find?_fields_eq_none hkey) hrefuses]
        refine iff_of_false (fun ⟨_, hread⟩ => by cases hread) fun ⟨hknown, _⟩ => ?_
        exact hkey (hknown rfl key (List.mem_cons_self ..))
      | false =>
        rw [readMembers_cons_of_unknown (h.find?_fields_eq_none hkey) hrefuses v.skipFault?_tree,
          ih hrest, hrefuses]
        simp only [Bool.false_eq_true, false_imp_iff]

/-- The keys that have been seen in the end. -/
theorem mem_seen (h : r.Lawful entries levels) {seen seen' : List String}
    (hread : r.readMembers (memberTrees members) seen x = .ok (seen', y)) (he : e ∈ entries) :
    e.key ∈ seen' ↔ e.key ∈ seen ∨ e.key ∈ members.map Prod.fst := by
  induction members generalizing seen x with
  | nil =>
    obtain ⟨rfl, -⟩ := Prod.mk.inj (Except.ok.inj hread)
    simp
  | cons member rest ih =>
    obtain ⟨key, v⟩ := member
    rw [memberTrees] at hread
    rw [List.map_cons, List.mem_cons]
    by_cases hkey : key ∈ entries.map Entry.key
    · obtain ⟨e', he', rfl⟩ := List.mem_map.mp hkey
      by_cases hseen : e'.key ∈ seen
      · rw [readMembers_cons_of_seen (h.find?_fields he') hseen] at hread
        cases hread
      · rw [readMembers_cons_of_known (h.find?_fields he') hseen] at hread
        obtain ⟨z, -, hread⟩ := bind_eq_ok_iff.mp hread
        rw [ih hread, List.mem_cons]
        tauto
    · cases hrefuses : r.refusesUnknown with
      | true =>
        rw [readMembers_cons_of_refused (h.find?_fields_eq_none hkey) hrefuses] at hread
        cases hread
      | false =>
        rw [readMembers_cons_of_unknown (h.find?_fields_eq_none hkey) hrefuses v.skipFault?_tree]
          at hread
        have hne : e.key ≠ key := fun heq => hkey (heq ▸ List.mem_map_of_mem he)
        rw [ih hread, or_iff_right hne]

theorem isSome_lookup_iff {key : String} :
    (members.lookup key).isSome = true ↔ key ∈ members.map Prod.fst := by
  constructor
  · intro hsome
    by_contra hkey
    rw [lookup_eq_none hkey] at hsome
    cases hsome
  · intro hkey
    cases hlookup : members.lookup key with
    | some v => rfl
    | none =>
      obtain ⟨member, hmember, rfl⟩ := List.mem_map.mp hkey
      simpa using List.lookup_eq_none_iff.mp hlookup member hmember

/-- When the object closes, nothing is missed just if every required field has had a member. -/
theorem find?_missing_eq_none_iff (h : r.Lawful entries levels) {seen : List String}
    (hread : r.readMembers (memberTrees members) [] x = .ok (seen, y)) :
    (r.fields.find? fun field => field.required && !seen.contains field.key) = none ↔
      ∀ e ∈ entries, e.field.required = true → (members.lookup e.key).isSome = true := by
  rw [h.fields_eq, List.find?_eq_none, List.forall_mem_map]
  refine forall₂_congr fun e he => ?_
  have hseen : e.field.key ∈ seen ↔ (members.lookup e.key).isSome = true := by
    rw [isSome_lookup_iff]
    exact (h.mem_seen hread he).trans (by simp)
  simp [hseen]

/-- **An object is read** if no field comes twice, none that is required is missing, and none is
refused. -/
theorem read_object_iff (h : r.Lawful entries levels) (hdepth : membersDepth members ≤ levels) :
    r.read x (Value.object members).tree = .ok y ↔
      (r.refusesUnknown = true → ∀ key ∈ members.map Prod.fst, key ∈ entries.map Entry.key) ∧
        (∀ key ∈ entries.map Entry.key, (members.map Prod.fst).count key ≤ 1) ∧
          (∀ e ∈ entries, e.field.required = true → (members.lookup e.key).isSome = true) ∧
            Filled entries members x y := by
  have hmembers : (∃ seen, r.readMembers (memberTrees members) [] x = .ok (seen, y)) ↔ _ :=
    h.readMembers_iff hdepth
  have htwice : NoneTwice (entries.map Entry.key) [] members ↔
      ∀ key ∈ entries.map Entry.key, (members.map Prod.fst).count key ≤ 1 := by
    simp [NoneTwice]
  rw [read_object_eq_ok_iff, ← htwice]
  constructor
  · rintro ⟨seen, hread, hfind⟩
    obtain ⟨hknown, htwice, hfilled⟩ := hmembers.mp ⟨seen, hread⟩
    exact ⟨hknown, htwice, (h.find?_missing_eq_none_iff hread).mp hfind, hfilled⟩
  · rintro ⟨hknown, htwice, hrequired, hfilled⟩
    obtain ⟨seen, hread⟩ := hmembers.mpr ⟨hknown, htwice, hfilled⟩
    exact ⟨seen, hread, (h.find?_missing_eq_none_iff hread).mpr hrequired⟩

/-! ### Arrays -/

/-- The keys that are given to items are among those there are. -/
theorem notMem_zip {key : String} {keys : List String} (hkey : key ∉ keys) (items : List Value) :
    key ∉ (keys.zip items).map Prod.fst := by
  intro hmem
  obtain ⟨⟨key', v⟩, hmem', rfl⟩ := List.mem_map.mp hmem
  exact hkey (List.of_mem_zip hmem').1

/-- The fields that are left for an array: one item is for the first of them. -/
theorem required_cons {left : List (Entry δ)} (hkey : e.key ∉ left.map Entry.key) :
    (∀ e' ∈ e :: left, e'.field.required = true →
        (((e.key, v) :: members).lookup e'.key).isSome = true) ↔
      ∀ e' ∈ left, e'.field.required = true → (members.lookup e'.key).isSome = true := by
  rw [List.forall_mem_cons, List.lookup_cons_self]
  refine (and_iff_right fun _ => rfl).trans (forall₂_congr fun e' he' => ?_)
  have hne : e'.key ≠ e.key := fun heq => hkey (heq ▸ List.mem_map_of_mem he')
  rw [List.lookup_cons, beq_eq_false_iff_ne.mpr hne]

/-- The items of an array fill the fields that are left, in their order, if there are no more of
them than of fields and one for each field that is required. -/
theorem readItems_iff (h : r.Lawful entries levels) {left : List (Entry δ)} (hleft : left ⊆ entries)
    (hnodup : (left.map Entry.key).Nodup) {items : List Value} (hdepth : itemsDepth items ≤ levels)
    (index : Nat) :
    r.readItems none (left.map Entry.field) index (itemTrees items) x = .ok y ↔
      items.length ≤ left.length ∧
        (∀ e ∈ left, e.field.required = true →
          (((left.map Entry.key).zip items).lookup e.key).isSome = true) ∧
          Filled entries ((left.map Entry.key).zip items) x y := by
  induction left generalizing items index x with
  | nil =>
    cases items with
    | nil =>
      change _ ↔ _ ∧ _ ∧ Filled entries [] x y
      rw [h.filled_nil]
      constructor
      · intro hread
        exact ⟨Nat.le_refl _, by simp, (Except.ok.inj hread).symm⟩
      · rintro ⟨-, -, rfl⟩
        rfl
    | cons v items =>
      refine iff_of_false (fun hread => by cases hread) fun ⟨hlength, _⟩ => ?_
      exact absurd hlength (Nat.not_succ_le_zero _)
  | cons e left ih =>
    obtain ⟨he, hleft⟩ := List.cons_subset.mp hleft
    obtain ⟨hkey, hnodup⟩ := List.nodup_cons.mp hnodup
    cases items with
    | nil =>
      -- the array stops early
      have hrest :
          r.readItems none (left.map Entry.field) (index + 1) (itemTrees []) x = .ok y ↔ _ :=
        ih hleft hnodup (Nat.zero_le _) (index + 1)
      rw [List.map_cons, readItems_cons_nil]
      cases hrequired : e.field.required with
      | true =>
        refine iff_of_false (fun h => by cases h) fun ⟨_, hall, _⟩ => ?_
        simpa using hall e (List.mem_cons_self ..) hrequired
      | false =>
        simp only [Bool.false_eq_true, if_false, hrest]
        simp [hrequired]
    | cons v items =>
      obtain ⟨hv, hitems⟩ := Nat.max_le.mp hdepth
      rw [List.map_cons, readItems_cons_cons, bind_eq_ok_iff, List.map_cons, List.zip_cons_cons,
        h.filled_cons he (notMem_zip hkey items) hv, required_cons hkey, List.length_cons,
        List.length_cons, Nat.add_le_add_iff_right]
      simp only [ih hleft hnodup hitems]
      constructor
      · rintro ⟨z, hfill, hlength, hall, hfilled⟩
        exact ⟨hlength, hall, z, hfill, hfilled⟩
      · rintro ⟨hlength, hall, z, hfill, hfilled⟩
        exact ⟨z, hfill, hlength, hall, hfilled⟩

/-- **A record is read into just the values that are given by its members**, none of which may be
one that it refuses. -/
theorem reads_known (h : r.Lawful entries levels) (x : δ) :
    Reads (r.read x) (fun y v => ∃ members, GivesMembers (entries.map Entry.key) v members ∧
      (r.refusesUnknown = true → ∀ key ∈ members.map Prod.fst, key ∈ entries.map Entry.key) ∧
        ∀ e ∈ entries, e.IsGiven members x y) (levels + 1) := by
  intro v hv y
  simp only [isGiven_iff_filled]
  match v with
  | .null | .bool _ | .number _ | .string _ =>
    refine iff_of_false (fun hread => ?_) fun ⟨members, hmembers, _⟩ => by cases hmembers
    simp only [Value.tree, Record.read] at hread
    exact Tree.unexpected_ne_ok _ _ _ hread
  | .object members =>
    rw [h.read_object_iff (Nat.le_of_succ_le_succ hv)]
    constructor
    · rintro ⟨hknown, htwice, hrequired, hfilled⟩
      exact ⟨members, .object htwice, hknown, hrequired, hfilled⟩
    · rintro ⟨_, ⟨htwice⟩, hknown, hrequired, hfilled⟩
      exact ⟨hknown, htwice, hrequired, hfilled⟩
  | .array items =>
    have hitems : r.readItems none (entries.map Entry.field) 0 (itemTrees items) x = .ok y ↔ _ :=
      h.readItems_iff (List.Subset.refl _) h.nodup (Nat.le_of_succ_le_succ hv) 0
    rw [Value.tree, Record.read, h.fields_eq, hitems]
    constructor
    · rintro ⟨hlength, hrequired, hfilled⟩
      -- an array gives no other keys than those of the fields
      refine ⟨_, .array ?_, fun _ key hkey => ?_, hrequired, hfilled⟩
      · rwa [List.length_map]
      · by_contra hunknown
        exact notMem_zip hunknown items hkey
    · rintro ⟨_, hmembers, -, hrequired, hfilled⟩
      cases hmembers with
      | array hlength =>
        rw [List.length_map] at hlength
        exact ⟨hlength, hrequired, hfilled⟩

/-- **A record is read into just the values that are given by its members**, if it refuses none
of them. -/
theorem reads (h : r.Lawful entries levels) (hopen : r.refusesUnknown = false) (x : δ) :
    Reads (r.read x) (fun y v => ∃ members, GivesMembers (entries.map Entry.key) v members ∧
      ∀ e ∈ entries, e.IsGiven members x y) (levels + 1) :=
  (h.reads_known x).congr fun y v => by
    simp only [hopen, Bool.false_eq_true, false_imp_iff, true_and]

end Lawful

end Record

end Filling

end BridgeNames.Json
