import BridgeNames.Json.Token
import Mathlib.Data.List.Chain
import Mathlib.Data.List.TakeWhile

/-!
# The grammar of tokens

What a text has to look like to be made of given tokens, said without a look at how tokens are
taken off it. Every token has its spellings – a numeral may have a sign in its exponent or none, and
a character of a string may be escaped or not – and between tokens there may be blanks.

The relations here say what a spelling is, and leave it open how many a token has. That a text is
cut into just the tokens it is a spelling of is `BridgeNames.Json.tokens_of_renders`. It takes one
condition: of two tokens in a row one is a mark. A numeral needs it, since it goes on for as long as
it can, and what follows it must not be more of it; the tokens of a value meet it
(`BridgeNames.Json.Value.isChain_tokens`).
-/

namespace BridgeNames.Json

/-! ### Spellings of numerals -/

/-- One digit or more. -/
def IsDigits (text : List Char) : Prop := text ≠ [] ∧ ∀ c ∈ text, c.isDigit = true

/-- A whole part: a zero alone, or digits of which the first is no zero. -/
def IsWhole (text : List Char) : Prop :=
  text = ['0'] ∨ (IsDigits text ∧ text.head? ≠ some '0')

/-- The spellings of a fraction. -/
inductive FractionText : List Char → List Char → Prop
  | absent : FractionText [] []
  | point {digits : List Char} (h : IsDigits digits) : FractionText digits ('.' :: digits)

/-- The spellings of an exponent. -/
inductive ExponentText : Option Exponent → List Char → Prop
  | absent : ExponentText none []
  | unsigned {mark : Char} {digits : List Char} (hmark : mark = 'e' ∨ mark = 'E')
      (h : IsDigits digits) : ExponentText (some ⟨false, digits⟩) (mark :: digits)
  | plus {mark : Char} {digits : List Char} (hmark : mark = 'e' ∨ mark = 'E')
      (h : IsDigits digits) : ExponentText (some ⟨false, digits⟩) (mark :: '+' :: digits)
  | minus {mark : Char} {digits : List Char} (hmark : mark = 'e' ∨ mark = 'E')
      (h : IsDigits digits) : ExponentText (some ⟨true, digits⟩) (mark :: '-' :: digits)

/-- The spellings of a numeral without its sign. -/
inductive UnsignedText : Numeral → List Char → Prop
  | mk {n : Numeral} {fraction exponent : List Char} (hwhole : IsWhole n.whole)
      (hfraction : FractionText n.fraction fraction)
      (hexponent : ExponentText n.exponent exponent) :
      UnsignedText n (n.whole ++ (fraction ++ exponent))

/-- **The spellings of a numeral.** -/
inductive NumeralText : Numeral → List Char → Prop
  | plain {n : Numeral} {text : List Char} (hn : n.negative = false) (h : UnsignedText n text) :
      NumeralText n text
  | minus {n : Numeral} {text : List Char} (hn : n.negative = true) (h : UnsignedText n text) :
      NumeralText n ('-' :: text)

/-- A text that no numeral before it could go on with. -/
def EndsNumeral (rest : List Char) : Prop :=
  ∀ c ∈ rest.head?, c.isDigit = false ∧ c ≠ '.' ∧ c ≠ 'e' ∧ c ≠ 'E'

/-! ### Spellings of strings -/

/-- **The spellings of characters between quotes.** A character may stand for itself unless it is a
quote, a backslash or a control; some have an escape by letter; any one can be escaped by its unit
or its pair of units. -/
inductive StringText : List Char → List Char → Prop
  | nil : StringText [] []
  | char {c : Char} {chars text : List Char} (hquote : c ≠ '"') (hslash : c ≠ '\\')
      (hcontrol : 0x20 ≤ c.toNat) (h : StringText chars text) : StringText (c :: chars) (c :: text)
  | letter {l c : Char} {chars text : List Char} (hl : escapedChar? l = some c)
      (h : StringText chars text) : StringText (c :: chars) ('\\' :: l :: text)
  | unit {a b c d : Char} {n : Nat} {chars text : List Char} (hn : hexUnit? a b c d = some n)
      (hhigh : isHighSurrogate n = false) (hlow : isLowSurrogate n = false)
      (h : StringText chars text) :
      StringText (Char.ofNat n :: chars) ('\\' :: 'u' :: a :: b :: c :: d :: text)
  | pair {a b c d a' b' c' d' : Char} {high low : Nat} {chars text : List Char}
      (hhigh : hexUnit? a b c d = some high) (hlow : hexUnit? a' b' c' d' = some low)
      (hisHigh : isHighSurrogate high = true) (hisLow : isLowSurrogate low = true)
      (h : StringText chars text) :
      StringText (surrogatePair high low :: chars)
        ('\\' :: 'u' :: a :: b :: c :: d :: '\\' :: 'u' :: a' :: b' :: c' :: d' :: text)

/-! ### Spellings of tokens -/

/-- The spellings of a token. -/
inductive TokenText : Token → List Char → Prop
  | mark {c : Char} (hc : c ∈ ['[', ']', '{', '}', ',', ':']) : TokenText (.mark c) [c]
  | null : TokenText .null ['n', 'u', 'l', 'l']
  | trueWord : TokenText (.bool true) ['t', 'r', 'u', 'e']
  | falseWord : TokenText (.bool false) ['f', 'a', 'l', 's', 'e']
  | number {n : Numeral} {text : List Char} (h : NumeralText n text) : TokenText (.number n) text
  | string {s : String} {text : List Char} (h : StringText s.toList text) :
      TokenText (.string (.text s)) ('"' :: (text ++ ['"']))

/-- Blanks in any number. -/
def IsBlankRun (text : List Char) : Prop := ∀ c ∈ text, isSpace c = true

/-- **The spellings of tokens in a row**, with blanks before, between and after them. -/
inductive Renders : List Token → List Char → Prop
  | nil {blanks : List Char} (hblanks : IsBlankRun blanks) : Renders [] blanks
  | cons {token : Token} {tokens : List Token} {blanks lexeme rest : List Char}
      (hblanks : IsBlankRun blanks) (hlexeme : TokenText token lexeme)
      (hrest : Renders tokens rest) : Renders (token :: tokens) (blanks ++ (lexeme ++ rest))

/-- A token that is a mark. -/
def Token.IsMark : Token → Prop
  | .mark _ => True
  | _ => False

/-- Of two tokens in a row one is a mark. -/
def OneIsMark (first second : Token) : Prop := first.IsMark ∨ second.IsMark

/-! ### Numerals are read -/

section Numerals

variable {digits rest : List Char}

theorem takeWhile_isDigit (h : ∀ c ∈ digits, c.isDigit = true)
    (hrest : ∀ c ∈ rest.head?, c.isDigit = false) :
    (digits ++ rest).takeWhile Char.isDigit = digits ∧
      (digits ++ rest).dropWhile Char.isDigit = rest := by
  rw [List.takeWhile_append_of_pos h, List.dropWhile_append_of_pos h]
  cases rest with
  | nil => simp
  | cons c rest =>
    have hc : c.isDigit = false := hrest c rfl
    simp [hc]

theorem readDigits_append (h : IsDigits digits) (hrest : ∀ c ∈ rest.head?, c.isDigit = false) :
    readDigits (digits ++ rest) = .ok (digits, rest) := by
  obtain ⟨hne, hall⟩ := h
  cases digits with
  | nil => exact absurd rfl hne
  | cons c digits =>
    obtain ⟨hc, hdigits⟩ := List.forall_mem_cons.mp hall
    obtain ⟨htake, hdrop⟩ := takeWhile_isDigit hdigits hrest
    rw [List.cons_append, readDigits, if_pos hc, htake, hdrop]

theorem readWhole_append {whole : List Char} (h : IsWhole whole)
    (hrest : ∀ c ∈ rest.head?, c.isDigit = false) :
    readWhole (whole ++ rest) = .ok (whole, rest) := by
  obtain rfl | ⟨hdigits, hzero⟩ := h
  · have hnone : rest.head?.any Char.isDigit = false := by
      cases rest with
      | nil => rfl
      | cons c rest => exact hrest c rfl
    rw [List.singleton_append, readWhole, hnone]
    rfl
  · rw [readWhole]
    · exact readDigits_append hdigits hrest
    · intro rest' h
      obtain ⟨c, whole, rfl⟩ := List.exists_cons_of_ne_nil hdigits.1
      exact hzero (congrArg some (List.cons.inj h).1)

theorem readFraction_append {fraction text : List Char} (h : FractionText fraction text)
    (hrest : ∀ c ∈ rest.head?, c.isDigit = false ∧ c ≠ '.') :
    readFraction (text ++ rest) = .ok (fraction, rest) := by
  cases h with
  | absent =>
    rw [List.nil_append, readFraction]
    rintro rest' rfl
    exact (hrest '.' rfl).2 rfl
  | point hdigits =>
    rw [List.cons_append, readFraction]
    exact readDigits_append hdigits fun c hc => (hrest c hc).1

/-- A digit is none of the characters with a meaning of their own in a numeral. -/
theorem ne_of_isDigit {c d : Char} (hc : c.isDigit = true) (hd : d.isDigit = false) : c ≠ d := by
  rintro rfl
  rw [hc] at hd
  cases hd

theorem readSigned_append (h : IsDigits digits) (hrest : ∀ c ∈ rest.head?, c.isDigit = false) :
    readSigned (digits ++ rest) = .ok (⟨false, digits⟩, rest) := by
  have hread := readDigits_append h hrest
  obtain ⟨hne, hall⟩ := h
  obtain ⟨c, digits, rfl⟩ := List.exists_cons_of_ne_nil hne
  have hc : c.isDigit = true := hall c (List.mem_cons_self ..)
  rw [readSigned, hread]
  · rfl
  · intro rest' h
    exact ne_of_isDigit hc (by decide) (List.cons.inj h).1
  · intro rest' h
    exact ne_of_isDigit hc (by decide) (List.cons.inj h).1

theorem readExponent_append {exponent : Option Exponent} {text : List Char}
    (h : ExponentText exponent text) (hrest : EndsNumeral rest) :
    readExponent (text ++ rest) = .ok (exponent, rest) := by
  have hdigit : ∀ c ∈ rest.head?, c.isDigit = false := fun c hc => (hrest c hc).1
  cases h with
  | absent =>
    rw [List.nil_append, readExponent]
    · rintro rest' rfl
      exact (hrest 'e' rfl).2.2.1 rfl
    · rintro rest' rfl
      exact (hrest 'E' rfl).2.2.2 rfl
  | unsigned hmark h =>
    have hsigned := readSigned_append h hdigit
    rcases hmark with rfl | rfl <;>
    · rw [List.cons_append, readExponent, hsigned]
      rfl
  | plus hmark h =>
    have hread := readDigits_append h hdigit
    rcases hmark with rfl | rfl <;>
    · rw [List.cons_append, List.cons_append, readExponent, readSigned, hread]
      rfl
  | minus hmark h =>
    have hread := readDigits_append h hdigit
    rcases hmark with rfl | rfl <;>
    · rw [List.cons_append, List.cons_append, readExponent, readSigned, hread]
      rfl

/-- What follows a fraction is no digit and no point. -/
theorem ExponentText.head_append {exponent : Option Exponent} {text : List Char}
    (h : ExponentText exponent text) (hrest : EndsNumeral rest) :
    ∀ c ∈ (text ++ rest).head?, c.isDigit = false ∧ c ≠ '.' := by
  have hmark : ∀ mark : Char, mark = 'e' ∨ mark = 'E' → mark.isDigit = false ∧ mark ≠ '.' := by
    rintro mark (rfl | rfl) <;> decide
  cases h with
  | absent => exact fun c hc => ⟨(hrest c hc).1, (hrest c hc).2.1⟩
  | unsigned h _ | plus h _ | minus h _ =>
    intro c hc
    obtain rfl := Option.some.inj hc
    exact hmark _ h

/-- What follows a whole part is no digit. -/
theorem FractionText.head_append {fraction text : List Char} (h : FractionText fraction text)
    (hrest : ∀ c ∈ rest.head?, c.isDigit = false) :
    ∀ c ∈ (text ++ rest).head?, c.isDigit = false := by
  cases h with
  | absent => exact hrest
  | point _ =>
    intro c hc
    obtain rfl := Option.some.inj hc
    rfl

/-- **A numeral is read up to its end.** -/
theorem Numeral.read_append {n : Numeral} {text : List Char} (h : UnsignedText n text)
    (hrest : EndsNumeral rest) : Numeral.read n.negative (text ++ rest) = .ok (n, rest) := by
  obtain ⟨hwhole, hfraction, hexponent⟩ := h
  have hexponent' := readExponent_append hexponent hrest
  have hhead := hexponent.head_append hrest
  have hfraction' := readFraction_append hfraction hhead
  have hwhole' := readWhole_append hwhole (hfraction.head_append fun c hc => (hhead c hc).1)
  rw [Numeral.read, List.append_assoc, List.append_assoc, hwhole']
  simp only [bind, Except.bind, hfraction', hexponent']
  rfl

end Numerals

/-! ### Strings are read -/

/-- **A string is read up to its closing quote.** -/
theorem Pieces.read_append {chars text : List Char} (h : StringText chars text)
    (rest : List Char) :
    ∃ pieces, Pieces.read (text ++ '"' :: rest) = ⟨pieces, none, rest⟩ ∧
      pairUnits pieces = .whole chars := by
  induction h with
  | nil => exact ⟨[], by rw [List.nil_append, Pieces.read], rfl⟩
  | @char c chars text hquote hslash hcontrol h ih =>
    obtain ⟨pieces, hread, hpair⟩ := ih
    refine ⟨.char c :: pieces, ?_, by rw [pairUnits, hpair]; rfl⟩
    rw [List.cons_append, Pieces.read, if_neg (Nat.not_lt.mpr hcontrol), hread]
    · rfl
    · exact hquote
    all_goals exact fun _ => by simp [hslash]
  | @letter l c chars text hl h ih =>
    obtain ⟨pieces, hread, hpair⟩ := ih
    refine ⟨.char c :: pieces, ?_, by rw [pairUnits, hpair]; rfl⟩
    have hu : l ≠ 'u' := by
      rintro rfl
      cases hl
    rw [List.cons_append, List.cons_append, Pieces.read]
    · simp only [hl, hread]
      rfl
    all_goals simp [hu]
  | @unit a b c d n chars text hn hhigh hlow h ih =>
    obtain ⟨pieces, hread, hpair⟩ := ih
    refine ⟨.unit n :: pieces, ?_, ?_⟩
    · simp only [List.cons_append, Pieces.read, hn, hread]
      rfl
    · unfold pairUnits
      simp only [hhigh, hlow, hpair, Bool.false_eq_true, if_false]
      rfl
  | @pair a b c d a' b' c' d' high low chars text hhigh hlow hisHigh hisLow h ih =>
    obtain ⟨pieces, hread, hpair⟩ := ih
    refine ⟨.unit high :: .unit low :: pieces, ?_, ?_⟩
    · simp only [List.cons_append, Pieces.read, hhigh, hlow, hread]
      rfl
    · simp only [pairUnits, hisHigh, hisLow, hpair, if_true]
      rfl

/-! ### Tokens are taken off -/

/-- A numeral without its sign opens with a digit. -/
theorem UnsignedText.eq_cons {n : Numeral} {text : List Char} (h : UnsignedText n text) :
    ∃ c tail, text = c :: tail ∧ c.isDigit = true := by
  obtain ⟨hwhole, -, -⟩ := h
  obtain hzero | ⟨⟨hne, hall⟩, -⟩ := hwhole
  · rw [hzero]
    exact ⟨'0', _, rfl, rfl⟩
  · obtain ⟨c, whole, hcons⟩ := List.exists_cons_of_ne_nil hne
    rw [hcons] at hall ⊢
    exact ⟨c, _, rfl, hall c (List.mem_cons_self ..)⟩

theorem nextToken_number {n : Numeral} {text rest : List Char} (h : NumeralText n text)
    (hrest : EndsNumeral rest) :
    ∃ c tail, text = c :: tail ∧ isSpace c = false ∧
      nextToken c (tail ++ rest) = (.number n, rest) := by
  cases h with
  | minus hn h =>
    refine ⟨'-', _, rfl, rfl, ?_⟩
    have hread := Numeral.read_append h hrest
    rw [hn] at hread
    simp only [nextToken, numberToken, hread]
  | plain hn h =>
    have hread := Numeral.read_append h hrest
    obtain ⟨c, tail, rfl, hc⟩ := h.eq_cons
    have hspace : isSpace c = false := by
      simp [isSpace, ne_of_isDigit hc (show ' '.isDigit = false from rfl),
        ne_of_isDigit hc (show '\t'.isDigit = false from rfl),
        ne_of_isDigit hc (show '\n'.isDigit = false from rfl),
        ne_of_isDigit hc (show '\r'.isDigit = false from rfl)]
    refine ⟨c, tail, rfl, hspace, ?_⟩
    rw [hn, List.cons_append] at hread
    rw [nextToken, if_pos hc, numberToken, hread]
    all_goals exact ne_of_isDigit hc rfl

theorem takeWord_append (word rest : List Char) : takeWord word (word ++ rest) = .ok rest := by
  induction word with
  | nil => rfl
  | cons c word ih => rw [List.cons_append, takeWord, if_pos rfl, ih]

theorem wordToken_append (word : String) (token : Token) (rest : List Char) :
    wordToken word token (word.toList ++ rest) = (token, rest) := by
  rw [wordToken, takeWord_append]

/-- **A token is taken off the front of a text.** A mark may be followed by anything, any other
token only by what is no more of a numeral. -/
theorem TokenText.nextToken_append {token : Token} {lexeme rest : List Char}
    (h : TokenText token lexeme) (hrest : token.IsMark ∨ EndsNumeral rest) :
    ∃ c tail, lexeme = c :: tail ∧ isSpace c = false ∧
      nextToken c (tail ++ rest) = (token, rest) := by
  cases h with
  | @mark c hc =>
    refine ⟨c, [], rfl, ?_⟩
    simp only [List.mem_cons, List.not_mem_nil, or_false] at hc
    rcases hc with rfl | rfl | rfl | rfl | rfl | rfl <;> exact ⟨rfl, rfl⟩
  | null => exact ⟨'n', _, rfl, rfl, wordToken_append "ull" .null rest⟩
  | trueWord => exact ⟨'t', _, rfl, rfl, wordToken_append "rue" (.bool true) rest⟩
  | falseWord => exact ⟨'f', _, rfl, rfl, wordToken_append "alse" (.bool false) rest⟩
  | number h => exact nextToken_number h (hrest.resolve_left id)
  | @string s text h =>
    refine ⟨'"', _, rfl, rfl, ?_⟩
    obtain ⟨pieces, hread, hpair⟩ := Pieces.read_append h rest
    simp only [List.append_assoc, List.singleton_append, nextToken, hread, Quotation.ofPieces,
      hpair, String.ofList_toList]

/-! ### A text is cut into its tokens -/

theorem tokens_of_blankRun {blanks : List Char} (h : IsBlankRun blanks) : tokens blanks = [] := by
  have hdrop : blanks.dropWhile isSpace = [] := List.dropWhile_eq_nil_iff.mpr h
  rw [tokens]
  split
  · rfl
  · next heq =>
    rw [hdrop] at heq
    cases heq

theorem tokens_append {blanks tail : List Char} {c : Char} (h : IsBlankRun blanks)
    (hc : isSpace c = false) :
    tokens (blanks ++ c :: tail) = (nextToken c tail).1 :: tokens (nextToken c tail).2 := by
  have hdrop : (blanks ++ c :: tail).dropWhile isSpace = c :: tail := by
    rw [List.dropWhile_append_of_pos h, List.dropWhile_cons_of_neg (by simp [hc])]
  rw [tokens]
  split
  · next heq =>
    rw [hdrop] at heq
    cases heq
  · next heq =>
    rw [hdrop] at heq
    obtain ⟨rfl, rfl⟩ := List.cons.inj heq
    rfl

/-- A blank ends a numeral, and so do a mark and the end of the text. -/
theorem Renders.endsNumeral {tokens : List Token} {text : List Char}
    (h : Renders tokens text) (hmark : ∀ token ∈ tokens.head?, token.IsMark) :
    EndsNumeral text := by
  have hspace : ∀ c, isSpace c = true → c.isDigit = false ∧ c ≠ '.' ∧ c ≠ 'e' ∧ c ≠ 'E' := by
    intro c hc
    simp only [isSpace, Bool.or_eq_true, beq_iff_eq, or_assoc] at hc
    rcases hc with rfl | rfl | rfl | rfl <;> decide
  cases h with
  | @nil blanks hblanks =>
    intro c hc
    exact hspace c (hblanks c (List.mem_of_mem_head? hc))
  | @cons token tokens blanks lexeme rest hblanks hlexeme hrest =>
    intro c hc
    cases blanks with
    | cons d blanks =>
      obtain rfl := Option.some.inj hc
      exact hspace d (hblanks d (List.mem_cons_self ..))
    | nil =>
      have htoken := hmark token rfl
      cases hlexeme with
      | @mark d hd =>
        obtain rfl := Option.some.inj hc
        simp only [List.mem_cons, List.not_mem_nil, or_false] at hd
        rcases hd with rfl | rfl | rfl | rfl | rfl | rfl <;> decide
      | null | trueWord | falseWord | number h | string h => exact htoken.elim

/-- **A text is cut into the tokens that it is a spelling of.** -/
theorem tokens_of_renders {toks : List Token} {text : List Char} (h : Renders toks text)
    (hchain : toks.IsChain OneIsMark) : tokens text = toks := by
  induction h with
  | nil hblanks => exact tokens_of_blankRun hblanks
  | @cons token toks blanks lexeme rest hblanks hlexeme hrest ih =>
    obtain ⟨hhead, htail⟩ := List.isChain_cons.mp hchain
    have hends : token.IsMark ∨ EndsNumeral rest := by
      by_cases hmark : token.IsMark
      · exact Or.inl hmark
      · exact Or.inr (hrest.endsNumeral fun next hnext => (hhead next hnext).resolve_left hmark)
    obtain ⟨c, tail, rfl, hc, hnext⟩ := hlexeme.nextToken_append hends
    rw [List.cons_append, tokens_append hblanks hc, hnext, ih htail]

end BridgeNames.Json
