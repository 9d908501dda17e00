import BridgeNames.Proofs.Json.Shapes
import BridgeNames.Proofs.Json.Writing

/-!
# Reading back

Something is written as a value, and this as a text; a reader with a limit to its levels reads the
text. `BridgeNames.Json.ReadsBack` says what should come out: the thing itself if there are levels
enough, and otherwise the fault of a text that nests too deep – but nothing else. From values it
goes over to texts (`BridgeNames.Json.ReadsBack.text`).

With levels enough it is the shape that is read which decides, so only the other case is left to
look into (`BridgeNames.Json.readsBack_of_reads`). There a reader goes through the members or items
that it still can read, up to the first that opens a level too many.
-/

namespace BridgeNames.Json

/-! ### Values and texts -/

section ReadsBack

variable {α : Type} {read : Nat → Reader α} {write : α → Value} {Shape : α → Value → Prop}

/-- **Things are read back from the values that are written for them**, if there are levels enough;
otherwise these values are taken for faulty. -/
def ReadsBack (read : Nat → Reader α) (write : α → Value) : Prop :=
  ∀ x levels, read levels (write x).tree =
    if (write x).depth ≤ levels then .ok x else fail .malformed

theorem readsBack_of_reads (h : ∀ levels, Reads (read levels) Shape levels)
    (hshape : ∀ x, Shape x (write x))
    (hdeep : ∀ x levels, levels < (write x).depth → read levels (write x).tree = fail .malformed) :
    ReadsBack read write := by
  intro x levels
  split
  · next hdepth => exact (h levels _ hdepth x).mpr (hshape x)
  · next hdepth => exact hdeep x levels (Nat.not_le.mp hdepth)

/-- **Things are read back from the texts that are written for them**, if these nest containers no
deeper than 127 levels; otherwise the texts are taken for faulty. -/
def TextReadsBack (read : Nat → Reader α) (write : α → Value) : Prop :=
  ∀ x, readText read (String.ofList (write x).toText) =
    if (write x).depth ≤ 127 then .ok x else .error (.fault .malformed)

theorem ReadsBack.text (h : ReadsBack read write) (hwritable : ∀ x, (write x).IsWritable) :
    TextReadsBack read write := by
  intro x
  rw [readText_of_isText read (Value.isText_toText (hwritable x))]
  exact h x levelLimit

end ReadsBack

/-! ### Objects and lists -/

section Members

variable {members rest : List (String × Value)}

theorem membersDepth_append :
    membersDepth (members ++ rest) = max (membersDepth members) (membersDepth rest) := by
  induction members with
  | nil => exact (Nat.zero_max _).symm
  | cons member members ih => rw [List.cons_append, membersDepth, ih, membersDepth, Nat.max_assoc]

theorem membersWritable_append :
    MembersWritable (members ++ rest) ↔ MembersWritable members ∧ MembersWritable rest := by
  induction members with
  | nil => exact iff_of_eq (true_and _).symm
  | cons member members ih => rw [List.cons_append, MembersWritable, ih, MembersWritable, and_assoc]

/-- Members whose keys come in the order of the fields are those of a record. -/
theorem givesMembers_of_sublist {keys : List String} (h : (members.map Prod.fst).Sublist keys)
    (hkeys : keys.Nodup) : GivesMembers keys (.object members) members :=
  .object fun key _ => List.nodup_iff_count_le_one.mp (h.nodup hkeys) key

end Members

namespace Record

variable {δ : Type} {r : Record δ} {x y : δ} {e : ReadError} {field : Field δ} {key : String}
  {v : Value} {members : List (String × Value)} {seen : List String}

theorem readMembers_cons_of_ok (hfind : r.fields.find? (·.key == key) = some field)
    (hseen : key ∉ seen) (hfill : field.fill v.tree x = .ok y) :
    r.readMembers (memberTrees ((key, v) :: members)) seen x =
      r.readMembers (memberTrees members) (key :: seen) y := by
  rw [memberTrees, readMembers_cons_of_known hfind hseen, hfill]
  rfl

theorem readMembers_cons_of_error (hfind : r.fields.find? (·.key == key) = some field)
    (hseen : key ∉ seen) (hfill : field.fill v.tree x = .error e) :
    r.readMembers (memberTrees ((key, v) :: members)) seen x = .error e := by
  rw [memberTrees, readMembers_cons_of_known hfind hseen, hfill]
  rfl

theorem read_object_of_error (h : r.readMembers (memberTrees members) [] x = .error e) :
    r.read x (Value.object members).tree = .error e := by
  rw [Value.tree, Record.read, h]
  rfl

end Record

section Lists

variable {α : Type} {item : Nat → Reader α} {write : α → Value}

theorem itemsWritable_map {xs : List α} (h : ∀ x, (write x).IsWritable) :
    ItemsWritable (xs.map write) := by
  induction xs with
  | nil => trivial
  | cons x xs ih => exact ⟨h x, ih⟩

/-- The first item that is too deep is where reading stops. -/
theorem mapM_of_too_deep (h : ReadsBack item write) {xs : List α} {levels : Nat}
    (hdeep : levels < itemsDepth (xs.map write)) :
    (itemTrees (xs.map write)).mapM (item levels) = fail .malformed := by
  induction xs with
  | nil => exact absurd hdeep (Nat.not_lt_zero _)
  | cons x xs ih =>
    rw [List.map_cons, itemTrees, List.mapM_cons, h x levels]
    split
    · next hx =>
      have hrest : levels < itemsDepth (xs.map write) := by
        rw [List.map_cons, itemsDepth] at hdeep
        omega
      rw [ih hrest]
      rfl
    · rfl

theorem readList_of_too_deep (h : ReadsBack item write) {xs : List α} {levels : Nat}
    (hdeep : levels < (Value.array (xs.map write)).depth) :
    readList item levels (Value.array (xs.map write)).tree = fail .malformed := by
  cases levels with
  | zero => rfl
  | succ levels =>
    rw [Value.tree, readList, mapM_of_too_deep h (Nat.lt_of_succ_lt_succ hdeep)]
    rfl

end Lists

end BridgeNames.Json
