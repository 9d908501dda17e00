import BridgeNames.Marker
import Mathlib.Data.List.Basic

/-!
# Markers read back

The text of a marker can be read back, so nothing about a name is lost in it. The reader
`BridgeNames.readMarker` knows the fixed parts of the text and six escapes, and no more of a name
than that.

The one thing to see is where the literal ends. A name may hold quotes, backslashes in any number
before them, and even a copy of what follows a literal in a marker. But a character is written
without a look at its neighbours, either as itself or as a backslash and a letter, and a reader that
takes the letter together with its backslash is back in step after every character
(`BridgeNames.readLiteral_literalChar`). So a quote that it meets in step is the one that was put at
the end.

The reader leaves what follows a marker alone, and hence takes several markers apart that are
written one after the other.
-/

namespace BridgeNames

/-! ### Literals -/

/-- The character that a letter after a backslash stands for. -/
def literalEscape? : Char → Option Char
  | '\\' => some '\\'
  | '"' => some '"'
  | '$' => some '$'
  | 'n' => some '\n'
  | 'r' => some '\r'
  | 't' => some '\t'
  | _ => none

/-- Reads a literal whose opening quote has been taken off: its text, and what follows its closing
quote. -/
def readLiteral : List Char → Option (List Char × List Char)
  | [] => none
  | '"' :: rest => some ([], rest)
  | ['\\'] => none
  | '\\' :: letter :: rest => do
    let c ← literalEscape? letter
    let (text, rest) ← readLiteral rest
    return (c :: text, rest)
  | c :: rest => do
    let (text, rest) ← readLiteral rest
    return (c :: text, rest)

/-- **What may stand between the quotes of a literal**: characters without a meaning of their own
there, and the six escapes. -/
inductive LiteralBody : List Char → Prop
  | nil : LiteralBody []
  | plain {c : Char} {rest : List Char} (hc : c ∉ ['\\', '"', '$', '\n', '\r', '\t'])
      (hrest : LiteralBody rest) : LiteralBody (c :: rest)
  | escape {letter : Char} {rest : List Char} (hletter : letter ∈ ['\\', '"', '$', 'n', 'r', 't'])
      (hrest : LiteralBody rest) : LiteralBody ('\\' :: letter :: rest)

/-- **A character is written as itself or by one of the six escapes.** -/
theorem literalChar_cases (c : Char) :
    (c ∉ ['\\', '"', '$', '\n', '\r', '\t'] ∧ literalChar c = [c]) ∨
      ∃ letter ∈ ['\\', '"', '$', 'n', 'r', 't'],
        literalEscape? letter = some c ∧ literalChar c = ['\\', letter] := by
  unfold literalChar
  split
  · exact Or.inr ⟨'"', by decide, rfl, rfl⟩
  · exact Or.inr ⟨'\\', by decide, rfl, rfl⟩
  · exact Or.inr ⟨'$', by decide, rfl, rfl⟩
  · exact Or.inr ⟨'n', by decide, rfl, rfl⟩
  · exact Or.inr ⟨'r', by decide, rfl, rfl⟩
  · exact Or.inr ⟨'t', by decide, rfl, rfl⟩
  · exact Or.inl ⟨by simp_all, rfl⟩

/-- **The reader is back in step after every character.** -/
theorem readLiteral_literalChar (c : Char) (rest : List Char) :
    readLiteral (literalChar c ++ rest) = do
      let (text, rest) ← readLiteral rest
      return (c :: text, rest) := by
  obtain ⟨hc, htext⟩ | ⟨letter, -, hescape, htext⟩ := literalChar_cases c
  · simp only [List.mem_cons, not_or] at hc
    rw [htext, List.singleton_append, readLiteral]
    · exact hc.2.1
    · exact fun h => absurd h hc.1
    · exact fun letter rest' h => absurd h hc.1
  · rw [htext, List.cons_append, List.singleton_append, readLiteral, hescape]
    rfl

/-- A literal is read up to its closing quote, whatever the text and what follows. -/
theorem readLiteral_append (text rest : List Char) :
    readLiteral (text.flatMap literalChar ++ '"' :: rest) = some (text, rest) := by
  induction text with
  | nil => rfl
  | cons c text ih =>
    rw [List.flatMap_cons, List.append_assoc, readLiteral_literalChar, ih]
    rfl

theorem literalBody_flatMap (text : List Char) : LiteralBody (text.flatMap literalChar) := by
  induction text with
  | nil => exact .nil
  | cons c text ih =>
    rw [List.flatMap_cons]
    obtain ⟨hc, htext⟩ | ⟨letter, hletter, -, htext⟩ := literalChar_cases c
    · rw [htext]
      exact .plain hc ih
    · rw [htext]
      exact .escape hletter ih

/-- There is no line break and no tab between the quotes of a literal. -/
theorem LiteralBody.notMem {body : List Char} (h : LiteralBody body) {c : Char}
    (hc : c ∈ ['\n', '\r', '\t']) : c ∉ body := by
  have hsplit : c = '\n' ∨ c = '\r' ∨ c = '\t' := by simpa using hc
  induction h with
  | nil => exact List.not_mem_nil
  | plain hplain _ ih =>
    rintro (_ | ⟨_, hmem⟩)
    · rcases hsplit with rfl | rfl | rfl <;> simp at hplain
    · exact ih hmem
  | escape hletter _ ih =>
    rintro (_ | ⟨_, _ | ⟨_, hmem⟩⟩)
    · rcases hsplit with h | h | h <;> cases h
    · rcases hsplit with rfl | rfl | rfl <;> simp at hletter
    · exact ih hmem

/-! ### Markers -/

/-- What stands before the name in a marker. -/
def markerHead : String := "@kotlin.native.ObjCName(" ++ "\""

/-- What the flag of a marker adds after the name. -/
def exactText : Option Bool → String
  | none => ""
  | some true => ", exact = true"
  | some false => ", exact = false"

/-- Reads the flag of a marker, if there is one. -/
def readExact (text : List Char) : Option Bool × List Char :=
  match ", exact = true".toList.isPrefixOf? text with
  | some rest => (some true, rest)
  | none =>
    match ", exact = false".toList.isPrefixOf? text with
    | some rest => (some false, rest)
    | none => (none, text)

/-- **Reads a marker**, and says what follows it. -/
def readMarker (text : List Char) : Option (NameMarker × List Char) := do
  let text ← markerHead.toList.isPrefixOf? text
  let (name, text) ← readLiteral text
  let (exact, text) := readExact text
  let rest ← [')'].isPrefixOf? text
  return ({ name := String.ofList name, exact }, rest)

theorem isPrefixOf?_append (front rest : List Char) :
    front.isPrefixOf? (front ++ rest) = some rest :=
  List.isPrefixOf?_eq_some_iff_append_eq.mpr rfl

theorem readExact_append (exact : Option Bool) (rest : List Char) :
    readExact ((exactText exact).toList ++ ')' :: rest) = (exact, ')' :: rest) := by
  rcases exact with _ | _ | _ <;> rfl

theorem exactText_some (exact : Bool) :
    exactText (some exact) = ", exact = " ++ flagText exact := by
  cases exact <;> rfl

theorem append_stringLiteral (front s : String) :
    front ++ stringLiteral s =
      front ++ "\"" ++ String.ofList (s.toList.flatMap literalChar) ++ "\"" := by
  rw [← String.toList_inj]
  simp [stringLiteral]

/-- The parts of a marker's text. -/
theorem NameMarker.text_eq (marker : NameMarker) :
    marker.text = markerHead ++ String.ofList (marker.name.toList.flatMap literalChar) ++ "\"" ++
      exactText marker.exact ++ ")" := by
  unfold NameMarker.text
  rw [append_stringLiteral]
  rcases marker.exact with _ | exact
  · rfl
  · rw [exactText_some]
    rfl

theorem NameMarker.toList_text (marker : NameMarker) :
    marker.text.toList = markerHead.toList ++ (marker.name.toList.flatMap literalChar ++
      '"' :: ((exactText marker.exact).toList ++ [')'])) := by
  have hquote : "\"".toList = ['"'] := rfl
  have hclose : ")".toList = [')'] := rfl
  rw [marker.text_eq]
  simp only [String.toList_append, String.toList_ofList, hquote, hclose, List.append_assoc,
    List.cons_append, List.nil_append]

/-- **A marker is read back, and what follows it is left.** -/
theorem readMarker_append (marker : NameMarker) (rest : List Char) :
    readMarker (marker.text.toList ++ rest) = some (marker, rest) := by
  have htext : marker.text.toList ++ rest =
      markerHead.toList ++ (marker.name.toList.flatMap literalChar ++
        '"' :: ((exactText marker.exact).toList ++ ')' :: rest)) := by
    simp only [marker.toList_text, List.append_assoc, List.cons_append, List.nil_append]
  have hclose : [')'].isPrefixOf? (')' :: rest) = some rest := isPrefixOf?_append [')'] rest
  rw [readMarker, htext, isPrefixOf?_append]
  simp only [Option.bind_eq_bind, Option.bind_some, readLiteral_append, readExact_append, hclose,
    String.ofList_toList]
  rfl

/-- Texts that begin with markers are equal only if the markers are, and what follows them. -/
theorem NameMarker.text_append_inj {marker marker' : NameMarker} {rest rest' : List Char}
    (h : marker.text.toList ++ rest = marker'.text.toList ++ rest') :
    marker = marker' ∧ rest = rest' := by
  have hread := readMarker_append marker rest
  rw [h, readMarker_append] at hread
  obtain ⟨hmarker, hrest⟩ := Prod.mk.inj (Option.some.inj hread)
  exact ⟨hmarker.symm, hrest.symm⟩

theorem NameMarker.text_injective : Function.Injective NameMarker.text := by
  intro marker marker' h
  have happend : marker.text.toList ++ [] = marker'.text.toList ++ [] := by rw [h]
  exact (text_append_inj happend).1

theorem NameMarker.text_ne_empty (marker : NameMarker) : marker.text.toList ≠ [] := by
  rw [marker.toList_text]
  exact fun h => absurd (List.append_eq_nil_iff.mp h).1 (by decide)

/-- **Markers that are written one after the other are taken apart again.** -/
theorem flatMap_text_inj {markers markers' : List NameMarker}
    (h : markers.flatMap (·.text.toList) = markers'.flatMap (·.text.toList)) :
    markers = markers' := by
  induction markers generalizing markers' with
  | nil =>
    cases markers' with
    | nil => rfl
    | cons marker' rest' => simp [marker'.text_ne_empty] at h
  | cons marker rest ih =>
    cases markers' with
    | nil => simp [marker.text_ne_empty] at h
    | cons marker' rest' =>
      obtain ⟨rfl, hrest⟩ := NameMarker.text_append_inj h
      rw [ih hrest]

/-! ### Markers of methods -/

/-- The markers of a method and of its parameters, in the order in which they are written. -/
def MethodMarkers.toList (markers : MethodMarkers) : List NameMarker :=
  markers.method :: markers.parameters

/-- The texts of the markers of a method. -/
def MethodMarkers.texts (markers : MethodMarkers) : List String :=
  markers.toList.map NameMarker.text

theorem MethodMarkers.toList_join_texts (markers : MethodMarkers) :
    (String.join markers.texts).toList = markers.toList.flatMap (·.text.toList) := by
  rw [String.toList_join, texts, List.flatMap_map]

/-- The names of a method can be told from the markers, up to a missing name. -/
theorem MethodNames.markers_inj {d d' : MethodNames} {exact exact' : Bool} :
    (d.markers exact).toList = (d'.markers exact').toList ↔
      exact = exact' ∧ d.labels = d'.labels ∧ d.name.getD "" = d'.name.getD "" := by
  have hlabel : Function.Injective fun label : String => ({ name := label } : NameMarker) := by
    intro label label' h
    exact (NameMarker.mk.inj h).1
  simp only [MethodMarkers.toList, MethodNames.markers, List.cons.injEq, NameMarker.mk.injEq,
    Option.some.injEq, List.map_inj_right hlabel]
  exact ⟨fun ⟨⟨hname, hexact⟩, hlabels⟩ => ⟨hexact, hlabels, hname⟩,
    fun ⟨hexact, hlabels, hname⟩ => ⟨⟨hname, hexact⟩, hlabels⟩⟩

/-- **Markers read back.**

A marker is read back from its text as it was, with nothing left over. What stands between the
quotes has no quote, no `$`, no line break and no tab in it but for escapes, and no backslash that
does not begin one. So two markers have one text only if they are the same. The markers of two
methods have the same texts exactly if the flags, the labels and the names of the methods are the
same, where no name counts as the empty one; and that is so too if all that is known is the texts
written one after the other. -/
theorem markers_read_back :
    (∀ marker : NameMarker, readMarker marker.text.toList = some (marker, [])) ∧
    (∀ marker : NameMarker, ∃ body, LiteralBody body ∧ '\n' ∉ body ∧ '\r' ∉ body ∧ '\t' ∉ body ∧
      marker.text = markerHead ++ String.ofList body ++ "\"" ++ exactText marker.exact ++ ")") ∧
    Function.Injective NameMarker.text ∧
    ∀ (d d' : MethodNames) (exact exact' : Bool),
      ((d.markers exact).texts = (d'.markers exact').texts ↔
        exact = exact' ∧ d.labels = d'.labels ∧ d.name.getD "" = d'.name.getD "") ∧
      (String.join (d.markers exact).texts = String.join (d'.markers exact').texts ↔
        exact = exact' ∧ d.labels = d'.labels ∧ d.name.getD "" = d'.name.getD "") := by
  refine ⟨fun marker => ?_, fun marker => ?_, NameMarker.text_injective,
    fun d d' exact exact' => ?_⟩
  · have h := readMarker_append marker []
    rwa [List.append_nil] at h
  · have hbody := literalBody_flatMap marker.name.toList
    exact ⟨_, hbody, hbody.notMem (by decide), hbody.notMem (by decide), hbody.notMem (by decide),
      marker.text_eq⟩
  · have hjoin : String.join (d.markers exact).texts = String.join (d'.markers exact').texts →
        exact = exact' ∧ d.labels = d'.labels ∧ d.name.getD "" = d'.name.getD "" := by
      intro h
      have hlists := congrArg String.toList h
      rw [MethodMarkers.toList_join_texts, MethodMarkers.toList_join_texts] at hlists
      exact MethodNames.markers_inj.mp (flatMap_text_inj hlists)
    have htexts : exact = exact' ∧ d.labels = d'.labels ∧ d.name.getD "" = d'.name.getD "" →
        (d.markers exact).texts = (d'.markers exact').texts :=
      fun h => congrArg (List.map NameMarker.text) (MethodNames.markers_inj.mpr h)
    exact ⟨⟨fun h => hjoin (congrArg String.join h), htexts⟩,
      ⟨hjoin, fun h => congrArg String.join (htexts h)⟩⟩

/-- A name that holds a backslash, a quote and a copy of what could follow it is still read up to
its end. -/
example : readMarker (NameMarker.text ⟨"a\\\", exact = true)$", some false⟩).toList =
    some (⟨"a\\\", exact = true)$", some false⟩, []) := by rfl

end BridgeNames
