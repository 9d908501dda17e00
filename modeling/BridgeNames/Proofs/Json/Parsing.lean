import BridgeNames.Json.Shape
import BridgeNames.Json.Value
import BridgeNames.Proofs.Json.Lexing

/-!
# Texts of JSON values

The tokens of a value are fixed; its texts are their spellings, with blanks anywhere between tokens
(`BridgeNames.Json.Value.IsText`). A text of a value is read into the tree of the value, and nothing
is left over (`BridgeNames.Json.Tree.ofText_of_isText`). So what a reader of shapes makes of a text
is what it makes of the tree, and no later proof looks at a text again.

The machine that builds the tree is followed through the tokens of one value at a time, whatever
containers are open around it: it starts before a value and ends behind it, holding its tree
(`BridgeNames.Json.State.run_tokens`).
-/

namespace BridgeNames.Json

/-! ### The tokens of a value -/

mutual

/-- The tokens of a value, in order. -/
def Value.tokens : Value → List Token
  | .null => [.null]
  | .bool b => [.bool b]
  | .number n => [.number n]
  | .string s => [.string (.text s)]
  | .array [] => [.mark '[', .mark ']']
  | .array (item :: rest) => .mark '[' :: (item.tokens ++ (itemsTokens rest ++ [.mark ']']))
  | .object [] => [.mark '{', .mark '}']
  | .object ((key, value) :: rest) =>
    .mark '{' :: .string (.text key) :: .mark ':' ::
      (value.tokens ++ (membersTokens rest ++ [.mark '}']))

/-- The tokens of the items after the first one. -/
def itemsTokens : List Value → List Token
  | [] => []
  | item :: rest => .mark ',' :: (item.tokens ++ itemsTokens rest)

/-- The tokens of the members after the first one. -/
def membersTokens : List (String × Value) → List Token
  | [] => []
  | (key, value) :: rest =>
    .mark ',' :: .string (.text key) :: .mark ':' :: (value.tokens ++ membersTokens rest)

end

/-- **The texts of a value**: the spellings of its tokens. -/
def Value.IsText (v : Value) (text : String) : Prop := Renders v.tokens text.toList

mutual

/-- How deep objects and arrays are nested in a value, and so in a text of it. -/
def Value.depth : Value → Nat
  | .array items => itemsDepth items + 1
  | .object members => membersDepth members + 1
  | _ => 0

/-- How deep the deepest item is. -/
def itemsDepth : List Value → Nat
  | [] => 0
  | item :: rest => max item.depth (itemsDepth rest)

/-- How deep the deepest member is. -/
def membersDepth : List (String × Value) → Nat
  | [] => 0
  | (_, value) :: rest => max value.depth (membersDepth rest)

end

/-! ### Of two tokens of a value in a row one is a mark -/

/-- Tokens that may stand behind any token. -/
def MayFollow (more : List Token) : Prop :=
  more.IsChain OneIsMark ∧ ∀ token ∈ more.head?, token.IsMark

section MayFollow

variable {more : List Token}

theorem isChain_mark_cons (c : Char) (h : more.IsChain OneIsMark) :
    (Token.mark c :: more).IsChain OneIsMark :=
  List.isChain_cons.mpr ⟨fun _ _ => Or.inl trivial, h⟩

theorem isChain_cons (token : Token) (h : MayFollow more) : (token :: more).IsChain OneIsMark :=
  List.isChain_cons.mpr ⟨fun next hnext => Or.inr (h.2 next hnext), h.1⟩

theorem mayFollow_mark_cons (c : Char) (h : more.IsChain OneIsMark) :
    MayFollow (.mark c :: more) := by
  refine ⟨isChain_mark_cons c h, fun token htoken => ?_⟩
  obtain rfl := Option.some.inj htoken
  trivial

end MayFollow

mutual

theorem Value.isChain_tokens_append (v : Value) {more : List Token} (h : MayFollow more) :
    (v.tokens ++ more).IsChain OneIsMark := by
  match v with
  | .null | .bool _ | .number _ | .string _ => exact isChain_cons _ h
  | .array [] | .object [] => exact isChain_mark_cons _ (isChain_cons _ h)
  | .array (item :: items) =>
    simp only [Value.tokens, List.cons_append, List.append_assoc, List.nil_append]
    have hclose := mayFollow_mark_cons ']' h.1
    exact isChain_mark_cons _ (item.isChain_tokens_append (mayFollow_itemsTokens items hclose))
  | .object ((key, value) :: members) =>
    simp only [Value.tokens, List.cons_append, List.append_assoc, List.nil_append]
    have hclose := mayFollow_mark_cons '}' h.1
    have hvalue := value.isChain_tokens_append (mayFollow_membersTokens members hclose)
    exact isChain_mark_cons _ (isChain_cons _ (mayFollow_mark_cons _ hvalue))

theorem mayFollow_itemsTokens (items : List Value) {more : List Token} (h : MayFollow more) :
    MayFollow (itemsTokens items ++ more) := by
  match items with
  | [] => exact h
  | item :: items =>
    simp only [itemsTokens, List.cons_append, List.append_assoc]
    exact mayFollow_mark_cons _ (item.isChain_tokens_append (mayFollow_itemsTokens items h))

theorem mayFollow_membersTokens (members : List (String × Value)) {more : List Token}
    (h : MayFollow more) : MayFollow (membersTokens members ++ more) := by
  match members with
  | [] => exact h
  | (key, value) :: members =>
    simp only [membersTokens, List.cons_append, List.append_assoc]
    have hvalue := value.isChain_tokens_append (mayFollow_membersTokens members h)
    exact mayFollow_mark_cons _ (isChain_cons _ (mayFollow_mark_cons _ hvalue))

end

/-- **Of two tokens of a value in a row one is a mark.** -/
theorem Value.isChain_tokens (v : Value) : v.tokens.IsChain OneIsMark := by
  have hnil : MayFollow [] := ⟨.nil, fun _ h => by cases h⟩
  have h := v.isChain_tokens_append hnil
  rwa [List.append_nil] at h

/-! ### The machine reads a value -/

namespace State

/-- Before the first item of an array the machine is where it is before any item, as long as the
array is not closed at once. -/
theorem run_firstItem (v : Value) (frames : List Frame) (rest : List Token) :
    run (.firstItem frames) (v.tokens ++ rest) =
      run (.beforeValue (.array [] :: frames)) (v.tokens ++ rest) := by
  match v with
  | .null | .bool _ | .number _ | .string _ => rfl
  | .array [] | .array (_ :: _) | .object [] | .object (_ :: _) => rfl

mutual

/-- **The machine goes through the tokens of a value and holds its tree**, whatever containers are
open around it. -/
theorem run_tokens (v : Value) (frames : List Frame) (rest : List Token) :
    run (.beforeValue frames) (v.tokens ++ rest) = run (.afterValue v.tree frames) rest := by
  match v with
  | .null | .bool _ | .number _ | .string _ => rfl
  | .array [] | .object [] => rfl
  | .array (item :: items) =>
    simp only [Value.tokens, List.cons_append, List.append_assoc, List.nil_append]
    change run (.firstItem frames) (item.tokens ++ (itemsTokens items ++ .mark ']' :: rest)) = _
    rw [run_firstItem, run_tokens item, run_itemsTokens items]
    rfl
  | .object ((key, value) :: members) =>
    simp only [Value.tokens, List.cons_append, List.append_assoc, List.nil_append]
    change run (.beforeValue (.object [] (.text key) :: frames))
      (value.tokens ++ (membersTokens members ++ .mark '}' :: rest)) = _
    rw [run_tokens value, run_membersTokens members]
    rfl

/-- The rest of an array, from the end of an item on. -/
theorem run_itemsTokens (items : List Value) (value : Tree) (before : List Tree)
    (frames : List Frame) (rest : List Token) :
    run (.afterValue value (.array before :: frames))
        (itemsTokens items ++ .mark ']' :: rest) =
      run (.afterValue (.array ((value :: before).reverse ++ itemTrees items) none) frames)
        rest := by
  match items with
  | [] =>
    rw [itemTrees, List.append_nil]
    rfl
  | item :: items =>
    simp only [itemsTokens, List.cons_append, List.append_assoc]
    change run (.beforeValue (.array (value :: before) :: frames))
      (item.tokens ++ (itemsTokens items ++ .mark ']' :: rest)) = _
    rw [run_tokens item, run_itemsTokens items, List.reverse_cons, List.append_assoc]
    rfl

/-- The rest of an object, from the end of a member on. -/
theorem run_membersTokens (members : List (String × Value)) (value : Tree)
    (before : List (Quotation × Tree)) (key : Quotation) (frames : List Frame)
    (rest : List Token) :
    run (.afterValue value (.object before key :: frames))
        (membersTokens members ++ .mark '}' :: rest) =
      run (.afterValue (.object (((key, value) :: before).reverse ++ memberTrees members) none)
        frames) rest := by
  match members with
  | [] =>
    rw [memberTrees, List.append_nil]
    rfl
  | (key', value') :: members =>
    simp only [membersTokens, List.cons_append, List.append_assoc]
    change run (.beforeValue (.object ((key, value) :: before) (.text key') :: frames))
      (value'.tokens ++ (membersTokens members ++ .mark '}' :: rest)) = _
    rw [run_tokens value', run_membersTokens members, List.reverse_cons, List.append_assoc]
    rfl

end

end State

/-- **A text of a value is read into the tree of the value**, up to its end. -/
theorem Tree.ofText_of_isText {v : Value} {text : String} (h : v.IsText text) :
    Tree.ofText text.toList = (v.tree, []) := by
  have htokens := tokens_of_renders h v.isChain_tokens
  have hrun := State.run_tokens v [] []
  rw [List.append_nil] at hrun
  rw [Tree.ofText, htokens, hrun]
  rfl

/-- **A text of a value is read into the value.** -/
theorem Value.ofText?_of_isText {v : Value} {text : String} (h : v.IsText text) :
    Value.ofText? text = some v := by
  simp only [Value.ofText?, Tree.ofText_of_isText h, v.value?_tree]

/-- **A text is a text of one value at most.** -/
theorem Value.IsText.value_eq {v w : Value} {text : String} (hv : v.IsText text)
    (hw : w.IsText text) : v = w := by
  have hvalue := Value.ofText?_of_isText hv
  rw [Value.ofText?_of_isText hw] at hvalue
  exact (Option.some.inj hvalue).symm

/-- **A reader takes a text of a value as it takes the tree of the value.** -/
theorem readText_of_isText {α : Type} (reader : Nat → Reader α) {v : Value} {text : String}
    (h : v.IsText text) : readText reader text = reader levelLimit v.tree := by
  simp only [readText, Tree.ofText_of_isText h]
  cases reader levelLimit v.tree <;> rfl

end BridgeNames.Json
