import BridgeNames.Proofs.Naming.SelectorKept

/-!
# Where the first segment is cut

The first segment of a selector holds the name of the method and the label of the first parameter,
and nothing in it says where the one ends and the other begins. There are two rules.

| what the segment shares with the method's name | where it is cut | what is noted |
|---|---|---|
| a part of it | after that part | nothing |
| nothing, or all of it | half way | that it is halved |

Three measures meet here. The shared part is counted in characters, half way is counted in UTF-16
units, and a cut has to fall between two characters. A character of two units may lie across the
place half way (`BridgeNames.Text.Across`); then the cut is one unit further left, and the character
opens the label. That is the only way in which the name can be short of half of the units
(`BridgeNames.Text.IsHalved`), and in a segment of two or three units it can leave no name at all
(`BridgeNames.Text.front_eq_nil_iff`). The label is never empty.
-/

namespace BridgeNames

/-! ### Half way -/

namespace Text

variable {n : Nat} {text front back p : List Char} {c : Char}

/-- A character takes two units exactly if it is outside the basic plane. -/
theorem charUnits_eq_two_iff (c : Char) : charUnits c = 2 ↔ 0x10000 ≤ c.toNat := by
  unfold charUnits
  split <;> omega

/-- A character begins before the place `n` units into a text and ends after it. -/
def Across (n : Nat) (front : List Char) (c : Char) : Prop :=
  units front < n ∧ n < units front + charUnits c

/-- **A cut falls before the first character that does not fit.** -/
theorem splitAtUnits_append_cons (hle : units front ≤ n) (hlt : n < units front + charUnits c) :
    splitAtUnits n (front ++ c :: back) = (front, c :: back) := by
  induction front generalizing n with
  | nil =>
    rw [units_nil, Nat.zero_add] at hlt
    rw [List.nil_append, splitAtUnits, if_neg (by omega)]
  | cons x front ih =>
    rw [units_cons] at hle hlt
    rw [List.cons_append, splitAtUnits, if_pos (by omega), ih (by omega) (by omega)]

/-- **The first part of a cut is the longest one that fits.** -/
theorem prefix_splitAtUnits (hp : p <+: text) (hn : units p ≤ n) :
    p <+: (splitAtUnits n text).1 := by
  have happend := splitAtUnits_append n text
  have hfront : (splitAtUnits n text).1 <+: text := ⟨_, happend⟩
  rcases List.prefix_or_prefix_of_prefix hp hfront with h | ⟨rest, hrest⟩
  · exact h
  rcases rest with _ | ⟨c, rest⟩
  · rw [List.append_nil] at hrest
    exact hrest ▸ List.prefix_refl p
  · -- a longer part holds the character after the cut, which no longer fits
    obtain ⟨back, hback⟩ := hp
    have hsecond : (splitAtUnits n text).2 = c :: (rest ++ back) := by
      rw [← hrest, List.append_assoc] at hback
      exact List.append_cancel_left (happend.trans hback.symm)
    have hlong := lt_units_of_splitAtUnits hsecond
    rw [← hrest, units_append, units_cons] at hn
    omega

/-- **The text is cut half way**: the first part takes as many whole characters as fit into half of
its units, which is one unit less than half exactly where a character lies across. -/
structure IsHalved (text front back : List Char) : Prop where
  fits : units front ≤ units text / 2
  longest : ∀ p, p <+: text → units p ≤ units text / 2 → p <+: front
  half_or_less : units front = units text / 2 ∨ units front + 1 = units text / 2
  less_iff : units front + 1 = units text / 2 ↔
    ∃ front' c back', text = front' ++ c :: back' ∧ Across (units text / 2) front' c
  across : ∀ front' c back', text = front' ++ c :: back' → Across (units text / 2) front' c →
    front = front' ∧ back = c :: back'

/-- The first part of a cut takes `n` units, or one less and the next character lies across. -/
theorem units_fst_splitAtUnits (h : n ≤ units text) :
    units (splitAtUnits n text).1 = n ∨ units (splitAtUnits n text).1 + 1 = n ∧
      ∃ c rest, (splitAtUnits n text).2 = c :: rest ∧ Across n (splitAtUnits n text).1 c := by
  have happend := splitAtUnits_append n text
  have hle := units_splitAtUnits_le n text
  rcases hback : (splitAtUnits n text).2 with _ | ⟨c, rest⟩
  · rw [hback, List.append_nil] at happend
    rw [happend] at hle ⊢
    exact Or.inl (by omega)
  · have hlt := lt_units_of_splitAtUnits hback
    have htwo := charUnits_le_two c
    rcases Nat.lt_or_ge (units (splitAtUnits n text).1) n with hless | hge
    · exact Or.inr ⟨by omega, c, rest, rfl, hless, hlt⟩
    · exact Or.inl (by omega)

/-- Halving a text cuts it half way. -/
theorem isHalved_splitAtUnits (text : List Char) :
    IsHalved text (splitAtUnits (units text / 2) text).1 (splitAtUnits (units text / 2) text).2 := by
  have hle : units text / 2 ≤ units text := Nat.div_le_self _ _
  have hacross : ∀ front' c back', text = front' ++ c :: back' →
      Across (units text / 2) front' c →
      splitAtUnits (units text / 2) text = (front', c :: back') := by
    rintro front' c back' htext ⟨hbefore, hafter⟩
    rw [htext] at hbefore hafter ⊢
    exact splitAtUnits_append_cons (Nat.le_of_lt hbefore) hafter
  refine ⟨units_splitAtUnits_le _ text, fun p hp hn => prefix_splitAtUnits hp hn, ?_,
    ⟨fun hless => ?_, ?_⟩, fun front' c back' htext h => ?_⟩
  · exact (units_fst_splitAtUnits hle).imp_right And.left
  · -- the character that opens the second part is the one that lies across
    obtain ⟨-, c, rest, hback, hc⟩ := (units_fst_splitAtUnits hle).resolve_left (by omega)
    refine ⟨_, c, rest, ?_, hc⟩
    rw [← hback, splitAtUnits_append]
  · rintro ⟨front', c, back', htext, hc⟩
    obtain ⟨hbefore, hafter⟩ := hc
    rw [hacross front' c back' htext ⟨hbefore, hafter⟩]
    have htwo := charUnits_le_two c
    change units front' + 1 = units text / 2
    omega
  · rw [hacross front' c back' htext h]
    exact ⟨rfl, rfl⟩

/-- What is cut half way and is long enough leaves something for the second part. -/
theorem IsHalved.back_ne_nil (h : IsHalved text front back) (happend : front ++ back = text)
    (hlong : 1 < units text) : back ≠ [] := by
  rintro rfl
  rw [List.append_nil] at happend
  have hfits := h.fits
  rw [happend] at hfits
  omega

/-- **Half way leaves no first part** exactly in a text of at most three units that opens with a
character outside the basic plane. -/
theorem IsHalved.front_eq_nil_iff (h : IsHalved text front back) (happend : front ++ back = text)
    (hlong : 1 < units text) :
    front = [] ↔ (∃ c rest, text = c :: rest ∧ 0x10000 ≤ c.toNat) ∧ units text ≤ 3 := by
  constructor
  · rintro rfl
    rw [List.nil_append] at happend
    rcases htext : text with _ | ⟨c, rest⟩
    · rw [htext] at hlong
      exact absurd hlong (by decide)
    -- the first character by itself does not fit into half of the units
    have hc : ¬units [c] ≤ units text / 2 := by
      intro hle
      have hprefix : [c] <+: text := by
        rw [htext]
        exact ⟨rest, rfl⟩
      exact absurd (List.prefix_nil.mp (h.longest [c] hprefix hle)) (List.cons_ne_nil c [])
    have htwo := charUnits_le_two c
    rw [units_cons, units_nil, htext] at hc
    rw [htext] at hlong
    exact ⟨⟨c, rest, rfl, (charUnits_eq_two_iff c).mp (by omega)⟩, by omega⟩
  · rintro ⟨⟨c, rest, htext, hc⟩, hshort⟩
    rcases front with _ | ⟨c', front⟩
    · rfl
    · -- a first part would begin with that character, which takes more than half
      exfalso
      rw [htext] at happend
      obtain ⟨rfl, -⟩ := List.cons.inj happend
      have hfits := h.fits
      have htwo := (charUnits_eq_two_iff c').mpr hc
      rw [units_cons] at hfits
      omega

end Text

/-! ### The first segment of a selector -/

open Text

/-- The events in a log that tell of a segment that is halved. -/
def halvings (events : List Event) : List Event :=
  events.filter fun e =>
    e.record.message = "no usable shared prefix, splitting selector segment in half"

namespace Method

variable {σ : Type} {supplier : Supplier σ} {s : σ} {m : Method} {selector : String}
  {d : MethodNames}

/-- Comparing labels and parameters halves no segment. -/
theorem halvings_names (hm : m.isExposed = true) :
    halvings (m.names.run supplier s).events = halvings (m.exposedNames.run supplier s).events := by
  rw [names_of_exposed hm, Naming.run_bind, Run.bind_apply]
  cases (m.exposedNames.run supplier s).value with
  | error e => simp [halvings]
  | ok d => cases hfits : d.fits m <;> simp [hfits, halvings, Event.record]

/-- **How the first segment is cut, and what is logged about it.** -/
theorem exists_cut (hsel : m.selector = some selector) (hc : m.isConstructor = false)
    (hp : m.parameters ≠ []) (hd : (m.names.run supplier s).value = .ok (some d)) :
    let segment := (selectorSegments selector).first
    let shared := commonPrefix m.name.toList segment
    ∃ front back, 1 < units segment ∧
      d = {
        name := some (String.ofList front)
        labels := String.ofList back :: (selectorSegments selector).others.map String.ofList } ∧
      (shared ≠ [] ∧ shared ≠ segment ∧ (front, back) = (shared, segment.drop shared.length) ∧
          halvings (m.names.run supplier s).events = [] ∨
        (shared = [] ∨ shared = segment) ∧
          (front, back) = splitAtUnits (units segment / 2) segment ∧
          halvings (m.names.run supplier s).events =
            [.segmentHalved m.name selector (String.ofList segment)]) := by
  intro segment shared
  have hnames := run_exposedNames_of_names hd
  rw [halvings_names (isExposed_of_names hd)]
  have hlong : 1 < units segment := one_lt_units_of_parameters hsel hc hp hnames
  rw [exposedNames_of_parameters hsel hc hp, selectedNames] at hnames ⊢
  by_cases hshared : shared ≠ [] ∧ shared ≠ segment
  · rw [cutFirst_of_shared m selector hshared] at hnames ⊢
    obtain rfl := Except.ok.inj hnames
    exact ⟨_, _, hlong, rfl, Or.inl ⟨hshared.1, hshared.2, rfl, rfl⟩⟩
  · rw [cutFirst_of_unshared m selector hshared hlong] at hnames ⊢
    obtain rfl := Except.ok.inj hnames
    have hshared' : shared = [] ∨ shared = segment := by
      by_cases hnil : shared = []
      · exact Or.inl hnil
      · exact Or.inr (Classical.not_not.mp fun hne => hshared ⟨hnil, hne⟩)
    refine ⟨_, _, hlong, rfl, Or.inr ⟨hshared', rfl, ?_⟩⟩
    simp [halvings, Event.record, segment]

/-- **Where the first segment of a selector is cut**, for a method with parameters that is no
constructor, under every supplier of names.

What the segment shares with the method's name is the longest text that both begin with. If it is a
part of the segment, the cut is after it. If it is nothing or all of the segment, the cut is half way,
and this is logged once; otherwise it is not logged. The name and the first label are the two parts of
the segment, and the label is not empty. There is no name left exactly where a segment of at most three
units that opens with a character outside the basic plane is cut half way. -/
theorem names_cut_first {σ : Type} (supplier : Supplier σ) (s : σ) (m : Method) (selector : String)
    (hsel : m.selector = some selector) (hc : m.isConstructor = false) (hp : m.parameters ≠ [])
    (d : MethodNames) (hd : (m.names.run supplier s).value = .ok (some d)) :
    let segment := selector.toList.takeWhile (· ≠ ':')
    ∃ shared front back others,
      (∀ text, text <+: shared ↔ text <+: m.name.toList ∧ text <+: segment) ∧
      d.name = some (String.ofList front) ∧ d.labels = String.ofList back :: others ∧
      front ++ back = segment ∧ back ≠ [] ∧
      (shared ≠ [] ∧ shared ≠ segment → front = shared) ∧
      (shared = [] ∨ shared = segment → IsHalved segment front back) ∧
      (front = [] ↔ (shared = [] ∨ shared = segment) ∧
        (∃ c rest, segment = c :: rest ∧ 0x10000 ≤ c.toNat) ∧ units segment ≤ 3) ∧
      halvings (m.names.run supplier s).events =
        if shared = [] ∨ shared = segment then
          [.segmentHalved m.name selector (String.ofList segment)]
        else [] := by
  intro segment
  have hsegment : (selectorSegments selector).first = segment := first_selectorSegments selector
  have hprefix := fun text => isPrefix_commonPrefix_iff (p := text) (a := m.name.toList) (b := segment)
  obtain ⟨front, back, hlong, rfl, hcut⟩ := exists_cut hsel hc hp hd
  rw [hsegment] at hlong hcut
  refine ⟨_, front, back, _, hprefix, rfl, rfl, ?_⟩
  rcases hcut with ⟨hnil, hall, hparts, hlog⟩ | ⟨hshared, hparts, hlog⟩
  · -- a part of the segment is shared
    obtain ⟨rfl, rfl⟩ := Prod.mk.inj hparts
    have happend := List.prefix_iff_eq_append.mp (commonPrefix_prefix_right m.name.toList segment)
    have hnot : ¬(commonPrefix m.name.toList segment = [] ∨
        commonPrefix m.name.toList segment = segment) := fun h => h.elim hnil hall
    refine ⟨happend, fun hback => hall ?_, fun _ => rfl, fun h => absurd h hnot,
      ⟨fun h => absurd h hnil, fun h => absurd h.1 hnot⟩, by rw [hlog, if_neg hnot]⟩
    rwa [hback, List.append_nil] at happend
  · -- nothing or all of it is shared
    obtain ⟨rfl, rfl⟩ := Prod.mk.inj hparts
    have happend := splitAtUnits_append (units segment / 2) segment
    have hhalved := isHalved_splitAtUnits segment
    have hfront := hhalved.front_eq_nil_iff happend hlong
    have hnot : ¬(commonPrefix m.name.toList segment ≠ [] ∧
        commonPrefix m.name.toList segment ≠ segment) := fun h => hshared.elim h.1 h.2
    exact ⟨happend, hhalved.back_ne_nil happend hlong, fun h => absurd h hnot, fun _ => hhalved,
      hfront.trans ⟨fun h => ⟨hshared, h⟩, And.right⟩, by rw [hlog, if_pos hshared]⟩

/-- A segment that the method's name begins with is shared as a whole and so is halved, here across a
character of two units, which leaves no name. -/
theorem names_cut_across_first_character :
    ((names {
        name := "😀xyz"
        parameters := [⟨"a", .primitive .int⟩]
        selector := some "😀x:" }).run (direct : Supplier Unit) ()).value =
      .ok (some { name := some "", labels := ["😀x", ""] }) ∧
    ∃ front back others, some "" = some (String.ofList front) ∧
      ["😀x", ""] = String.ofList back :: others ∧ front ++ back = ['😀', 'x'] ∧ back ≠ [] := by
  have hd : ((names {
        name := "😀xyz"
        parameters := [⟨"a", .primitive .int⟩]
        selector := some "😀x:" }).run (direct : Supplier Unit) ()).value =
      .ok (some { name := some "", labels := ["😀x", ""] }) := by rfl
  obtain ⟨-, front, back, others, -, hname, hlabels, happend, hback, -⟩ :=
    names_cut_first direct () _ "😀x:" rfl rfl (by decide) _ hd
  exact ⟨hd, front, back, others, hname, hlabels, happend, hback⟩

end Method

end BridgeNames
