import BridgeNames.Proofs.Json.Parsing
import Mathlib.Data.List.Basic

/-!
# What is written is a text

Writing a value gives one of its texts (`BridgeNames.Json.Value.isText_toText`), namely one without
blanks in which nothing is escaped that need not be. It is so for every value whose numerals can be
written, such as the decimals of natural numbers.
-/

namespace BridgeNames.Json

/-! ### Strings -/

theorem hexDigit?_hexDigit {n : Nat} (h : n < 16) : hexDigit? (hexDigit n) = some n := by
  revert n
  decide

theorem escapedChar?_cases (c : Char) :
    (∃ letter, escapedChar? letter = some c ∧ stringChar c = ['\\', letter]) ∨
      (c ≠ '"' ∧ c ≠ '\\' ∧ stringChar c =
        if c.toNat < 0x20 then
          ['\\', 'u', '0', '0', hexDigit (c.toNat / 16), hexDigit (c.toNat % 16)]
        else [c]) := by
  unfold stringChar
  split
  · exact Or.inl ⟨'"', rfl, rfl⟩
  · exact Or.inl ⟨'\\', rfl, rfl⟩
  · exact Or.inl ⟨'b', rfl, rfl⟩
  · exact Or.inl ⟨'t', rfl, rfl⟩
  · exact Or.inl ⟨'n', rfl, rfl⟩
  · exact Or.inl ⟨'f', rfl, rfl⟩
  · exact Or.inl ⟨'r', rfl, rfl⟩
  · next hquote hslash _ _ _ _ _ => exact Or.inr ⟨hquote, hslash, rfl⟩

/-- The unit of a control is no surrogate and stands for the control. -/
theorem stringText_control {c : Char} (h : c.toNat < 0x20) {chars text : List Char}
    (hrest : StringText chars text) :
    StringText (c :: chars)
      ('\\' :: 'u' :: '0' :: '0' :: hexDigit (c.toNat / 16) :: hexDigit (c.toNat % 16) ::
        text) := by
  have hhigh := hexDigit?_hexDigit (show c.toNat / 16 < 16 by omega)
  have hlow := hexDigit?_hexDigit (show c.toNat % 16 < 16 by omega)
  have hzero : hexDigit? '0' = some 0 := rfl
  have hunit : hexUnit? '0' '0' (hexDigit (c.toNat / 16)) (hexDigit (c.toNat % 16)) =
      some c.toNat := by
    simp only [hexUnit?, hhigh, hlow, hzero, Option.bind_eq_bind, Option.bind_some]
    refine congrArg some ?_
    omega
  have hnotHigh : isHighSurrogate c.toNat = false := by
    simp only [isHighSurrogate, Bool.and_eq_false_iff, decide_eq_false_iff_not]
    omega
  have hnotLow : isLowSurrogate c.toNat = false := by
    simp only [isLowSurrogate, Bool.and_eq_false_iff, decide_eq_false_iff_not]
    omega
  have htext := StringText.unit hunit hnotHigh hnotLow hrest
  rwa [Char.ofNat_toNat] at htext

theorem stringText_flatMap (chars : List Char) : StringText chars (chars.flatMap stringChar) := by
  induction chars with
  | nil => exact .nil
  | cons c chars ih =>
    rw [List.flatMap_cons]
    obtain ⟨letter, hletter, hchar⟩ | ⟨hquote, hslash, hchar⟩ := escapedChar?_cases c
    · rw [hchar]
      exact .letter hletter ih
    · rw [hchar]
      split
      · next hcontrol => exact stringText_control hcontrol ih
      · next hcontrol => exact .char hquote hslash (Nat.not_lt.mp hcontrol) ih

/-- **A string is written as a spelling of itself.** -/
theorem tokenText_stringText (s : String) : TokenText (.string (.text s)) (stringText s) := by
  rw [stringText, List.cons_append]
  exact .string (stringText_flatMap s.toList)

/-! ### Natural numbers -/

/-- The decimal of a positive number opens with no zero. -/
theorem head?_toDigits (n : Nat) (h : 0 < n) : (Nat.toDigits 10 n).head? ≠ some '0' := by
  induction n using Nat.strongRecOn with
  | ind n ih =>
    rcases Nat.lt_or_ge n 10 with hlt | hge
    · have hdigit : ∀ d < 10, 0 < d → [Nat.digitChar d].head? ≠ some '0' := by decide
      rw [Nat.toDigits_of_lt_base hlt]
      exact hdigit n hlt h
    · have hfront := ih (n / 10) (by omega) (by omega)
      rw [Nat.toDigits_of_base_le (by decide) hge,
        List.head?_append_of_ne_nil _ Nat.toDigits_ne_nil]
      exact hfront

theorem isWhole_toDigits (n : Nat) : IsWhole (Nat.toDigits 10 n) := by
  rcases Nat.eq_zero_or_pos n with rfl | hpos
  · exact Or.inl (Nat.toDigits_zero 10)
  · refine Or.inr ⟨⟨Nat.toDigits_ne_nil, fun c hc => ?_⟩, head?_toDigits n hpos⟩
    exact Nat.isDigit_of_mem_toDigits (by decide) (by decide) hc

theorem numeralText_ofNat (n : Nat) : NumeralText (.ofNat n) (Numeral.ofNat n).toText := by
  have htext : (Numeral.ofNat n).toText = Nat.toDigits 10 n ++ ([] ++ []) := by
    simp [Numeral.ofNat, Numeral.toText]
  rw [htext]
  exact .plain rfl (.mk (n := Numeral.ofNat n) (isWhole_toDigits n) .absent .absent)

/-! ### Values -/

mutual

/-- **A value that can be written**: the text of each numeral in it is a spelling. -/
def Value.IsWritable : Value → Prop
  | .number n => NumeralText n n.toText
  | .array items => ItemsWritable items
  | .object members => MembersWritable members
  | _ => True

/-- Items that can be written. -/
def ItemsWritable : List Value → Prop
  | [] => True
  | item :: rest => item.IsWritable ∧ ItemsWritable rest

/-- Members that can be written. -/
def MembersWritable : List (String × Value) → Prop
  | [] => True
  | (_, value) :: rest => value.IsWritable ∧ MembersWritable rest

end

section Renders

variable {token : Token} {more : List Token} {lexeme rest : List Char}

/-- A token without blanks before it. -/
theorem Renders.token_cons (hlexeme : TokenText token lexeme) (h : Renders more rest) :
    Renders (token :: more) (lexeme ++ rest) := by
  have hblanks : IsBlankRun [] := fun _ hc => by cases hc
  exact .cons hblanks hlexeme h

theorem Renders.mark_cons {c : Char} (hc : c ∈ ['[', ']', '{', '}', ',', ':'])
    (h : Renders more rest) : Renders (.mark c :: more) (c :: rest) :=
  .token_cons (.mark hc) h

theorem Renders.key_cons (key : String) (h : Renders more rest) :
    Renders (.string (.text key) :: .mark ':' :: more) (stringText key ++ ':' :: rest) :=
  .token_cons (tokenText_stringText key) (.mark_cons (by decide) h)

end Renders

mutual

/-- A value is written in front of what follows it. -/
theorem Value.renders_append (v : Value) (hv : v.IsWritable) {more : List Token}
    {rest : List Char} (h : Renders more rest) : Renders (v.tokens ++ more) (v.toText ++ rest) := by
  match v, hv with
  | .null, _ => exact .token_cons .null h
  | .bool true, _ => exact .token_cons .trueWord h
  | .bool false, _ => exact .token_cons .falseWord h
  | .number n, hv => exact .token_cons (.number hv) h
  | .string s, _ => exact .token_cons (tokenText_stringText s) h
  | .array [], _ => exact .mark_cons (by decide) (.mark_cons (by decide) h)
  | .array (item :: items), ⟨hitem, hitems⟩ =>
    simp only [Value.tokens, Value.toText, List.cons_append, List.append_assoc, List.nil_append]
    exact .mark_cons (by decide) (item.renders_append hitem
      (renders_itemsText items hitems (.mark_cons (by decide) h)))
  | .object [], _ => exact .mark_cons (by decide) (.mark_cons (by decide) h)
  | .object ((key, value) :: members), ⟨hvalue, hmembers⟩ =>
    simp only [Value.tokens, Value.toText, List.cons_append, List.append_assoc, List.nil_append]
    exact .mark_cons (by decide) (.key_cons key (value.renders_append hvalue
      (renders_membersText members hmembers (.mark_cons (by decide) h))))

theorem renders_itemsText (items : List Value) (hitems : ItemsWritable items) {more : List Token}
    {rest : List Char} (h : Renders more rest) :
    Renders (itemsTokens items ++ more) (itemsText items ++ rest) := by
  match items, hitems with
  | [], _ => exact h
  | item :: items, ⟨hitem, hitems⟩ =>
    simp only [itemsTokens, itemsText, List.cons_append, List.append_assoc]
    exact .mark_cons (by decide) (item.renders_append hitem (renders_itemsText items hitems h))

theorem renders_membersText (members : List (String × Value)) (hmembers : MembersWritable members)
    {more : List Token} {rest : List Char} (h : Renders more rest) :
    Renders (membersTokens members ++ more) (membersText members ++ rest) := by
  match members, hmembers with
  | [], _ => exact h
  | (key, value) :: members, ⟨hvalue, hmembers⟩ =>
    simp only [membersTokens, membersText, List.cons_append, List.append_assoc]
    exact .mark_cons (by decide) (.key_cons key (value.renders_append hvalue
      (renders_membersText members hmembers h)))

end

/-- **What is written for a value is a text of it.** -/
theorem Value.isText_toText {v : Value} (hv : v.IsWritable) :
    v.IsText (String.ofList v.toText) := by
  have hnil : Renders [] [] := .nil fun _ hc => by cases hc
  have h := v.renders_append hv hnil
  rw [List.append_nil, List.append_nil] at h
  rwa [Value.IsText, String.toList_ofList]

/-- **Values are read back from the texts that are written for them**, however deep they nest. -/
theorem Value.ofText?_toText {v : Value} (hv : v.IsWritable) :
    Value.ofText? (String.ofList v.toText) = some v :=
  Value.ofText?_of_isText (Value.isText_toText hv)

end BridgeNames.Json
