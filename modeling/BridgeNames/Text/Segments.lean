/-!
# Texts cut at a separator

A text cut at every occurrence of a separator falls into at least one segment, so the first
segment is a field of its own and never has to be looked for. Empty segments are kept: `a:b:`
has the segments `a`, `b` and the empty one.

The first segment is what stands before the first separator
(`BridgeNames.Text.Segments.first_ofText`). Cutting and joining are inverse to each other on
segments that are free of the separator:

* `BridgeNames.Text.Segments.join_ofText` – the segments of a text join to the text;
* `BridgeNames.Text.Segments.ofText_join` – segments without the separator are what their joined
  text is cut into.
-/

namespace BridgeNames.Text

/-- The segments of a text: one at least. -/
structure Segments where
  /-- What stands before the first separator. -/
  first : List Char
  /-- What follows each separator, in order. -/
  others : List (List Char)
  deriving DecidableEq, Repr

namespace Segments

/-- All segments, in order. -/
def toList (s : Segments) : List (List Char) := s.first :: s.others

/-- Cuts a text at every separator. -/
def ofText (sep : Char) : List Char → Segments
  | [] => ⟨[], []⟩
  | c :: rest =>
    let tail := ofText sep rest
    if c = sep then ⟨[], tail.toList⟩ else ⟨c :: tail.first, tail.others⟩

/-- Puts a separator before each further segment. -/
def join (sep : Char) (s : Segments) : List Char :=
  s.first ++ s.others.flatMap (sep :: ·)

/-! ### Cutting and joining -/

@[simp] theorem ofText_nil (sep : Char) : ofText sep [] = ⟨[], []⟩ := rfl

@[simp] theorem ofText_cons_self (sep : Char) (rest : List Char) :
    ofText sep (sep :: rest) = ⟨[], (ofText sep rest).toList⟩ := by
  simp [ofText]

theorem ofText_cons_of_ne {sep c : Char} (h : c ≠ sep) (rest : List Char) :
    ofText sep (c :: rest) = ⟨c :: (ofText sep rest).first, (ofText sep rest).others⟩ := by
  simp [ofText, h]

/-- The first segment of a text is what stands before the first separator. -/
theorem first_ofText (sep : Char) (text : List Char) :
    (ofText sep text).first = text.takeWhile (· ≠ sep) := by
  induction text with
  | nil => rfl
  | cons c rest ih =>
    by_cases hc : c = sep
    · subst hc
      simp
    · rw [ofText_cons_of_ne hc, ih]
      simp [hc]

/-- Joining the segments of a text gives the text back. -/
@[simp] theorem join_ofText (sep : Char) (text : List Char) :
    (ofText sep text).join sep = text := by
  induction text with
  | nil => rfl
  | cons c rest ih =>
    by_cases h : c = sep
    · subst h
      rw [ofText_cons_self]
      simpa [join, toList] using ih
    · rw [ofText_cons_of_ne h]
      simpa [join] using ih

/-- No segment of a text holds the separator. -/
theorem not_mem_of_mem_ofText {sep : Char} {text segment : List Char}
    (h : segment ∈ (ofText sep text).toList) : sep ∉ segment := by
  induction text generalizing segment with
  | nil => simp_all [toList]
  | cons c rest ih =>
    by_cases hc : c = sep
    · subst hc
      rw [ofText_cons_self] at h
      rcases List.mem_cons.1 h with rfl | h
      · simp
      · exact ih h
    · rw [ofText_cons_of_ne hc] at h
      rcases List.mem_cons.1 h with rfl | h
      · simp only [List.mem_cons, not_or]
        exact ⟨fun e => hc e.symm, ih (List.mem_cons_self ..)⟩
      · exact ih (List.mem_cons_of_mem _ h)

/-- A text free of the separator goes to the first segment of what follows. -/
theorem ofText_append {sep : Char} {front : List Char} (h : sep ∉ front) (text : List Char) :
    ofText sep (front ++ text) =
      ⟨front ++ (ofText sep text).first, (ofText sep text).others⟩ := by
  induction front with
  | nil => rfl
  | cons c front ih =>
    rw [List.cons_append, ofText_cons_of_ne (by rintro rfl; simp at h),
      ih (fun hm => h (List.mem_cons_of_mem _ hm))]
    rfl

/-- A segment free of the separator stays whole before a text that ends it. -/
theorem ofText_append_cons {sep : Char} {segment : List Char} (h : sep ∉ segment)
    (rest : List Char) :
    ofText sep (segment ++ sep :: rest) = ⟨segment, (ofText sep rest).toList⟩ := by
  rw [ofText_append h, ofText_cons_self, List.append_nil]

/-- A text free of the separator is its only segment. -/
theorem ofText_of_not_mem {sep : Char} {text : List Char} (h : sep ∉ text) :
    ofText sep text = ⟨text, []⟩ := by
  have happend := ofText_append h []
  simpa using happend

theorem join_cons (sep : Char) (first second : List Char) (others : List (List Char)) :
    join sep ⟨first, second :: others⟩ = first ++ sep :: join sep ⟨second, others⟩ := by
  simp [join]

/-- Segments free of the separator are what their joined text is cut into. -/
theorem ofText_join {sep : Char} {s : Segments} (h : ∀ segment ∈ s.toList, sep ∉ segment) :
    ofText sep (s.join sep) = s := by
  obtain ⟨first, others⟩ := s
  induction others generalizing first with
  | nil => simpa [join] using ofText_of_not_mem (h first (by simp [toList]))
  | cons second others ih =>
    have htail := ih second fun segment hm => h segment (by
      simp only [toList, List.mem_cons] at hm ⊢
      exact Or.inr hm)
    rw [join_cons, ofText_append_cons (h first (by simp [toList])), htail]
    simp [toList]

end Segments

end BridgeNames.Text
