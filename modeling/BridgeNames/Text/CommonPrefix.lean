/-!
# Longest common prefix

The prefix is walked character by character, so it always ends between two characters of both
texts. `BridgeNames.Text.isPrefix_commonPrefix_iff` says that it is the greatest one: a text is a
prefix of it exactly when it is a prefix of both.
-/

namespace BridgeNames.Text

/-- The longest text that both texts start with. -/
def commonPrefix : List Char → List Char → List Char
  | a :: as, b :: bs => if a = b then a :: commonPrefix as bs else []
  | _, _ => []

theorem commonPrefix_comm (a b : List Char) : commonPrefix a b = commonPrefix b a := by
  fun_induction commonPrefix a b with
  | case1 as b bs ih => simp [commonPrefix, ih]
  | case2 a as b bs h => simp [commonPrefix, Ne.symm h]
  | case3 a b h =>
    match a, b with
    | [], [] | [], _ :: _ | _ :: _, [] => simp [commonPrefix]
    | x :: xs, y :: ys => exact absurd rfl (h x xs y ys rfl)

theorem commonPrefix_prefix_left (a b : List Char) : commonPrefix a b <+: a := by
  fun_induction commonPrefix a b with
  | case1 as b bs ih => exact List.cons_prefix_cons.2 ⟨rfl, ih⟩
  | case2 => exact List.nil_prefix
  | case3 => exact List.nil_prefix

theorem commonPrefix_prefix_right (a b : List Char) : commonPrefix a b <+: b :=
  commonPrefix_comm a b ▸ commonPrefix_prefix_left b a

theorem prefix_commonPrefix {p a b : List Char} (ha : p <+: a) (hb : p <+: b) :
    p <+: commonPrefix a b := by
  induction p generalizing a b with
  | nil => exact List.nil_prefix
  | cons c p ih =>
    obtain ⟨as, rfl⟩ := ha
    obtain ⟨bs, rfl⟩ := hb
    simp only [List.cons_append, commonPrefix, if_true]
    exact List.cons_prefix_cons.2 ⟨rfl, ih (p.prefix_append as) (p.prefix_append bs)⟩

/-- A text is a prefix of the common prefix exactly when it is a prefix of both texts. -/
theorem isPrefix_commonPrefix_iff {p a b : List Char} :
    p <+: commonPrefix a b ↔ p <+: a ∧ p <+: b :=
  ⟨fun h => ⟨h.trans (commonPrefix_prefix_left a b), h.trans (commonPrefix_prefix_right a b)⟩,
    fun h => prefix_commonPrefix h.1 h.2⟩

end BridgeNames.Text
