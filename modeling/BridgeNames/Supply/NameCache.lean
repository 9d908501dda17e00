/-!
# The store of names

A store keeps one name per binary name. A name once kept is never replaced: keeping another under
the same key gives back the first (`BridgeNames.NameCache.find?_keep_self`), and no other key
notices (`BridgeNames.NameCache.find?_keep_of_ne`).
-/

namespace BridgeNames

/-- Names of declared types by binary name, one name for each. -/
structure NameCache where
  /-- The binary names and their names, the newest first. -/
  entries : List (String × String)
  /-- No binary name occurs twice. -/
  nodup : (entries.map Prod.fst).Nodup

namespace NameCache

/-- The store that holds nothing. -/
def empty : NameCache := ⟨[], List.nodup_nil⟩

/-- The binary names that have a name. -/
def keys (c : NameCache) : List String := c.entries.map Prod.fst

/-- The name kept for a binary name. -/
def find? (c : NameCache) (key : String) : Option String := c.entries.lookup key

/-- How many names are kept. -/
def size (c : NameCache) : Nat := c.entries.length

/-- Whether no name is kept. -/
def isEmpty (c : NameCache) : Bool := c.entries.isEmpty

theorem find?_eq_none_iff {c : NameCache} {key : String} : c.find? key = none ↔ key ∉ c.keys := by
  unfold find? keys
  induction c.entries with
  | nil => simp
  | cons entry rest ih =>
    obtain ⟨k, name⟩ := entry
    by_cases h : key = k
    · simp [h]
    · simp [List.lookup_cons, h, ih, beq_eq_false_iff_ne.2 h]

/-- Keeps a name under a binary name that has none yet. -/
def keep (c : NameCache) (key name : String) : NameCache :=
  if h : key ∈ c.keys then c
  else { entries := (key, name) :: c.entries, nodup := List.nodup_cons.2 ⟨h, c.nodup⟩ }

theorem keys_keep (c : NameCache) (key name : String) :
    (c.keep key name).keys = if key ∈ c.keys then c.keys else key :: c.keys := by
  unfold keep
  split <;> rfl

theorem find?_keep_self (c : NameCache) (key name : String) :
    (c.keep key name).find? key = some ((c.find? key).getD name) := by
  unfold keep
  split
  · next h =>
    cases hf : c.find? key with
    | none => exact absurd h (find?_eq_none_iff.1 hf)
    | some kept => rfl
  · next h =>
    rw [find?_eq_none_iff.2 h]
    simp [find?]

theorem find?_keep_of_ne (c : NameCache) {key other : String} (h : other ≠ key) (name : String) :
    (c.keep key name).find? other = c.find? other := by
  unfold keep
  split
  · rfl
  · simp [find?, List.lookup_cons, beq_eq_false_iff_ne.2 h]

end NameCache

end BridgeNames
