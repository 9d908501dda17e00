import BridgeNames.Proofs.Naming.FirstCut

/-!
# Cuts in bytes

A string is kept as bytes, one to four of them for a character, and a place in it is told by the
bytes before it. Not every number of bytes is a place: inside a character nothing can be cut. So a
cut that is worked out in bytes has to be shown to fall between two characters.

Both places where a first segment may be cut are worked out here over the characters with the
offsets at which they begin (`BridgeNames.Text.withOffsets`):

| cut | found at | offset |
|---|---|---|
| after what is shared with a name | the end of the last of the characters that agree | `sharedOffset` |
| half way | the first character with which more than half of the units are seen | `halfOffset?` |

The first offset is counted along the name and used in the segment. That it is a place there is
because the bytes counted are those of a common prefix (`BridgeNames.Text.sharedOffset_eq`). The
second one mixes units with bytes, but they are counted along the same characters
(`BridgeNames.Text.offsetPast?_append_cons`), and in a text of two units or more there always is
such a character.
-/

namespace BridgeNames

namespace Text

variable {a b p text front back rest : List Char} {c : Char}

/-! ### Lengths in bytes -/

/-- The bytes that a text takes in UTF-8. -/
def byteLength (text : List Char) : Nat := (String.ofList text).utf8ByteSize

@[simp] theorem byteLength_nil : byteLength [] = 0 := rfl

@[simp] theorem byteLength_cons (c : Char) (text : List Char) :
    byteLength (c :: text) = c.utf8Size + byteLength text := by
  rw [byteLength, String.ofList_cons, String.utf8ByteSize_append, String.utf8ByteSize_singleton]
  rfl

@[simp] theorem byteLength_append (front back : List Char) :
    byteLength (front ++ back) = byteLength front + byteLength back := by
  rw [byteLength, String.ofList_append, String.utf8ByteSize_append]
  rfl

theorem byteLength_toList (s : String) : byteLength s.toList = s.utf8ByteSize := by
  rw [byteLength, String.ofList_toList]

theorem byteLength_pos (h : text ≠ []) : 0 < byteLength text := by
  obtain ⟨c, rest, rfl⟩ := List.exists_cons_of_ne_nil h
  have hc : 0 < c.utf8Size := c.utf8Size_pos
  rw [byteLength_cons]
  omega

/-- **A part that a text begins with is all of it** if it takes as many bytes. -/
theorem byteLength_eq_iff_of_isPrefix (h : p <+: text) :
    byteLength p = byteLength text ↔ p = text := by
  constructor
  · intro hlength
    obtain ⟨rest, rfl⟩ := h
    rw [byteLength_append] at hlength
    by_cases hrest : rest = []
    · rw [hrest, List.append_nil]
    · have hpos : 0 < byteLength rest := byteLength_pos hrest
      omega
  · rintro rfl
    rfl

/-- A part that is not all of a text takes fewer bytes. -/
theorem byteLength_lt_of_isPrefix (h : p <+: text) (hne : p ≠ text) :
    byteLength p < byteLength text := by
  have heq : byteLength p ≠ byteLength text := mt (byteLength_eq_iff_of_isPrefix h).mp hne
  obtain ⟨rest, rfl⟩ := h
  rw [byteLength_append] at heq ⊢
  omega

/-! ### Places in a string -/

/-- **A string falls into two parts at an offset**: the offset is one of the places of the string,
so it is not inside a character, and the parts are what stands before it and after it. -/
def FallsAt (s : String) (offset : Nat) (front back : List Char) : Prop :=
  ∃ place : s.Pos, place.offset.byteIdx = offset ∧
    place.Splits (String.ofList front) (String.ofList back)

theorem fallsAt_of_append {s : String} (h : front ++ back = s.toList) :
    FallsAt s (byteLength front) front back := by
  have hs : s = String.ofList front ++ String.ofList back := by
    rw [← String.ofList_append, h, String.ofList_toList]
  have hvalid : (String.ofList front).rawEndPos.IsValid s :=
    String.Pos.Raw.isValid_iff_exists_append.mpr ⟨_, _, hs, rfl⟩
  exact ⟨⟨_, hvalid⟩, rfl, hs, rfl⟩

/-- A text falls apart after any text that it begins with. -/
theorem exists_fallsAt_of_isPrefix {s : String} (h : p <+: s.toList) :
    ∃ rest, FallsAt s (byteLength p) p rest := by
  obtain ⟨rest, hrest⟩ := h
  exact ⟨rest, fallsAt_of_append hrest⟩

/-! ### Characters with their offsets -/

/-- The characters of a text with the offsets at which they begin, if the text begins at the given
one. -/
def withOffsets : Nat → List Char → List (Nat × Char)
  | _, [] => []
  | offset, c :: rest => (offset, c) :: withOffsets (offset + c.utf8Size) rest

theorem length_withOffsets (offset : Nat) (text : List Char) :
    (withOffsets offset text).length = text.length := by
  induction text generalizing offset with
  | nil => rfl
  | cons c rest ih => rw [withOffsets, List.length_cons, ih, List.length_cons]

theorem withOffsets_append (offset : Nat) (front back : List Char) :
    withOffsets offset (front ++ back) =
      withOffsets offset front ++ withOffsets (offset + byteLength front) back := by
  induction front generalizing offset with
  | nil => rfl
  | cons c front ih =>
    rw [List.cons_append, withOffsets, ih, withOffsets, byteLength_cons, Nat.add_assoc,
      List.cons_append]

/-! ### After the shared part -/

/-- **The offset of the end of what two texts share**: the two are gone through side by side up to
the first difference, and the last character that is the same ends there. It is counted along the
first text. -/
def sharedOffset (a b : List Char) : Nat :=
  let same := ((withOffsets 0 a).zip b).takeWhile fun pair => pair.1.2 = pair.2
  match same.getLast? with
  | none => 0
  | some ((offset, c), _) => offset + c.utf8Size

/-- The characters that are the same are those of the common prefix. -/
theorem takeWhile_zip_withOffsets (offset : Nat) (a b : List Char) :
    ((withOffsets offset a).zip b).takeWhile (fun pair => pair.1.2 = pair.2) =
      (withOffsets offset (commonPrefix a b)).zip (commonPrefix a b) := by
  fun_induction commonPrefix a b generalizing offset with
  | case1 c as bs ih => simp [withOffsets, ih]
  | case2 c as d bs hne => simp [withOffsets, hne]
  | case3 a b hempty =>
    cases a with
    | nil => rfl
    | cons c as =>
      cases b with
      | nil => simp [withOffsets]
      | cons d bs => exact absurd rfl (hempty c as d bs rfl)

/-- **The bytes counted are those of the common prefix.** -/
theorem sharedOffset_eq (a b : List Char) : sharedOffset a b = byteLength (commonPrefix a b) := by
  rw [sharedOffset, takeWhile_zip_withOffsets]
  rcases List.eq_nil_or_concat (commonPrefix a b) with hnil | ⟨front, c, hlast⟩
  · rw [hnil]
    rfl
  · have hzip : (withOffsets 0 (front ++ [c])).zip (front ++ [c]) =
        (withOffsets 0 front).zip front ++ [((byteLength front, c), c)] := by
      rw [withOffsets_append, List.zip_append (length_withOffsets 0 front), Nat.zero_add]
      rfl
    rw [hlast, List.concat_eq_append, hzip, List.getLast?_concat, byteLength_append,
      byteLength_cons, byteLength_nil, Nat.add_zero]

/-! ### Half way -/

/-- Goes through characters with their offsets, `seen` units being behind them already, and stops at
the first character with which more than `target` units have been seen. -/
def offsetPast? (target : Nat) : (seen : Nat) → List (Nat × Char) → Option Nat
  | _, [] => none
  | seen, (offset, c) :: rest =>
    if target < seen + charUnits c then some offset
    else offsetPast? target (seen + charUnits c) rest

/-- **The offset of the place half way**, if there is a character to stop at. -/
def halfOffset? (text : List Char) : Option Nat :=
  offsetPast? (units text / 2) 0 (withOffsets 0 text)

/-- The search stops at the character that no longer fits, and so at the bytes of what does fit. -/
theorem offsetPast?_append_cons {target seen : Nat} (hfits : seen + units front ≤ target)
    (hlong : target < seen + units front + charUnits c) (offset : Nat) (back : List Char) :
    offsetPast? target seen (withOffsets offset (front ++ c :: back)) =
      some (offset + byteLength front) := by
  induction front generalizing seen offset with
  | nil =>
    rw [units_nil, Nat.add_zero] at hlong
    rw [List.nil_append, withOffsets, offsetPast?, if_pos hlong, byteLength_nil, Nat.add_zero]
  | cons d front ih =>
    rw [units_cons] at hfits hlong
    rw [List.cons_append, withOffsets, offsetPast?, if_neg (by omega), ih (by omega) (by omega),
      byteLength_cons, Nat.add_assoc]

/-- **In a text of two units or more the search stops at a character**, and this is where the text
is halved. -/
theorem halfOffset?_eq (h : 1 < units text) :
    ∃ front back, splitAtUnits (units text / 2) text = (front, back) ∧ front ++ back = text ∧
      byteLength front < byteLength text ∧ halfOffset? text = some (byteLength front) := by
  have happend := splitAtUnits_append (units text / 2) text
  have hhalved := isHalved_splitAtUnits text
  have hfits := units_splitAtUnits_le (units text / 2) text
  rcases hcut : splitAtUnits (units text / 2) text with ⟨front, back⟩
  simp only [hcut] at happend hhalved hfits
  have hne : back ≠ [] := hhalved.back_ne_nil happend h
  obtain ⟨c, rest, rfl⟩ := List.exists_cons_of_ne_nil hne
  have hlong := lt_units_of_splitAtUnits (congrArg Prod.snd hcut)
  simp only [hcut] at hlong
  refine ⟨front, c :: rest, rfl, happend, ?_, ?_⟩
  · have hpos : 0 < byteLength (c :: rest) := byteLength_pos hne
    rw [← happend, byteLength_append]
    omega
  · rw [← Nat.zero_add (units front)] at hfits hlong
    have hstop := offsetPast?_append_cons hfits hlong 0 rest
    rwa [Nat.zero_add, happend] at hstop

/-- **Where a first segment is cut, in bytes**: after what it shares with the name, unless that
takes no bytes or as many as the segment, and half way otherwise. -/
def cutOffset? (methodName segment : List Char) : Option Nat :=
  if sharedOffset methodName segment ≠ 0 ∧
      sharedOffset methodName segment ≠ byteLength segment then
    some (sharedOffset methodName segment)
  else halfOffset? segment

section CutOffset

variable {methodName segment : List Char}

/-- Comparing bytes tells whether the shared part is nothing, or all of the segment. -/
theorem sharedOffset_usable_iff :
    (sharedOffset methodName segment ≠ 0 ∧ sharedOffset methodName segment ≠ byteLength segment) ↔
      commonPrefix methodName segment ≠ [] ∧ commonPrefix methodName segment ≠ segment := by
  have hempty : [] <+: commonPrefix methodName segment := List.nil_prefix
  have hnil := byteLength_eq_iff_of_isPrefix hempty
  have hall := byteLength_eq_iff_of_isPrefix (commonPrefix_prefix_right methodName segment)
  rw [sharedOffset_eq, ne_eq, ne_eq, ne_eq, ne_eq, hall, eq_comm, ← byteLength_nil, hnil, eq_comm]

theorem cutOffset?_of_shared
    (h : commonPrefix methodName segment ≠ [] ∧ commonPrefix methodName segment ≠ segment) :
    cutOffset? methodName segment = some (byteLength (commonPrefix methodName segment)) := by
  rw [cutOffset?, if_pos (sharedOffset_usable_iff.mpr h), sharedOffset_eq]

theorem cutOffset?_of_unshared
    (h : ¬(commonPrefix methodName segment ≠ [] ∧ commonPrefix methodName segment ≠ segment)) :
    cutOffset? methodName segment = halfOffset? segment := by
  rw [cutOffset?, if_neg (mt sharedOffset_usable_iff.mp h)]

end CutOffset

end Text

open Text

namespace Method

/-- **The first segment falls apart where the bytes say**, and the two parts are the name and the
first label. -/
theorem cutFirst_fallsAt (m : Method) (selector : String) {segment : String}
    (h : 1 < units segment.toList) :
    ∃ front back offset, cutOffset? m.name.toList segment.toList = some offset ∧
      offset < segment.utf8ByteSize ∧ FallsAt segment offset front back ∧
      ∀ names, (m.cutFirst selector segment.toList).eval names = .ok (front, back) := by
  rw [← byteLength_toList]
  by_cases hshared : commonPrefix m.name.toList segment.toList ≠ [] ∧
      commonPrefix m.name.toList segment.toList ≠ segment.toList
  · have hprefix := commonPrefix_prefix_right m.name.toList segment.toList
    have happend := List.prefix_iff_eq_append.mp hprefix
    refine ⟨_, _, _, cutOffset?_of_shared hshared, byteLength_lt_of_isPrefix hprefix hshared.2,
      fallsAt_of_append happend, fun names => ?_⟩
    rw [cutFirst_of_shared m selector hshared]
    rfl
  · obtain ⟨front, back, hhalf, happend, hlt, hoffset⟩ := halfOffset?_eq h
    refine ⟨front, back, _, (cutOffset?_of_unshared hshared).trans hoffset, hlt,
      fallsAt_of_append happend, fun names => ?_⟩
    rw [cutFirst_of_unshared m selector hshared h, hhalf]
    rfl

end Method

/-- **Every cut of a segment falls between two characters.**

What two strings share is the longest text that both begin with, whichever of them comes first. Its
bytes are a place in both of them, and they are as many as those of the second string exactly where
the shared part is all of it. In a segment of two units or more the search for the place half way
stops at a character; the bytes before it are a place in the segment, short of its end, and the parts
on both sides are the halves. So where the name and the first label of a method are cut out of such
a segment, whichever of the two offsets it is cut at is a place in it. -/
theorem cuts_fall_between_characters :
    (∀ a b : String,
      let shared := commonPrefix a.toList b.toList
      let offset := sharedOffset a.toList b.toList
      (∀ p, p <+: shared ↔ p <+: a.toList ∧ p <+: b.toList) ∧
      shared = commonPrefix b.toList a.toList ∧
      (∃ rest, FallsAt a offset shared rest) ∧ (∃ rest, FallsAt b offset shared rest) ∧
      (offset = b.utf8ByteSize ↔ shared = b.toList)) ∧
    (∀ segment : String, 2 ≤ units segment.toList →
      ∃ front back offset, halfOffset? segment.toList = some offset ∧
        offset < segment.utf8ByteSize ∧ FallsAt segment offset front back ∧
        halve? segment.toList = some (front, back)) ∧
    ∀ (m : Method) (selector segment : String), 2 ≤ units segment.toList →
      ∃ front back offset, cutOffset? m.name.toList segment.toList = some offset ∧
        offset < segment.utf8ByteSize ∧ FallsAt segment offset front back ∧
        ∀ names, (m.cutFirst selector segment.toList).eval names = .ok (front, back) := by
  refine ⟨fun a b => ?_, fun segment h => ?_, fun m selector segment h => ?_⟩
  · have hleft := commonPrefix_prefix_left a.toList b.toList
    have hright := commonPrefix_prefix_right a.toList b.toList
    simp only [sharedOffset_eq]
    refine ⟨fun p => isPrefix_commonPrefix_iff, commonPrefix_comm _ _,
      exists_fallsAt_of_isPrefix hleft, exists_fallsAt_of_isPrefix hright, ?_⟩
    rw [← byteLength_toList]
    exact byteLength_eq_iff_of_isPrefix hright
  · obtain ⟨front, back, hhalf, happend, hlt, hoffset⟩ := halfOffset?_eq h
    rw [← byteLength_toList]
    refine ⟨front, back, _, hoffset, hlt, fallsAt_of_append happend, ?_⟩
    rw [halve?, if_neg (by omega), hhalf]
  · exact m.cutFirst_fallsAt selector h

/-- A character of two units lies across the place half way, so the first part is the one byte
before it; and what `été` shares with a segment takes five bytes for three characters. -/
theorem cuts_fall_beside_wide_characters :
    2 ≤ units "a😀b".toList ∧ halfOffset? "a😀b".toList = some 1 ∧
    (∃ front back offset, halfOffset? "a😀b".toList = some offset ∧ offset < "a😀b".utf8ByteSize ∧
      FallsAt "a😀b" offset front back ∧ halve? "a😀b".toList = some (front, back)) ∧
    2 ≤ units "étés".toList ∧ cutOffset? "été".toList "étés".toList = some 5 ∧
    ∃ front back offset, cutOffset? "été".toList "étés".toList = some offset ∧
      offset < "étés".utf8ByteSize ∧ FallsAt "étés" offset front back ∧
      ∀ names, (Method.cutFirst { name := "été" } "étés:" "étés".toList).eval names =
        .ok (front, back) := by
  have hwide : 2 ≤ units "a😀b".toList := by decide
  have hshared : 2 ≤ units "étés".toList := by decide
  exact ⟨hwide, by decide, cuts_fall_between_characters.2.1 _ hwide, hshared, by decide,
    cuts_fall_between_characters.2.2 { name := "été" } _ _ hshared⟩

end BridgeNames
