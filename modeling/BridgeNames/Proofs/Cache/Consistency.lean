import BridgeNames.Proofs.Cache.Lookup
import BridgeNames.Proofs.Supply.Session
import Mathlib.Data.Set.Insert

/-!
# When keeping names does not show

A name is looked up by a binary name alone, so a cache can only give the right answers if types of
one binary name have one name. Over a set of types that holds with each type what is around it,
this is also enough, and so the two come to the same.

* If names are consistent, a cache that was filled from the set holds the right name for every type
  in it (`BridgeNames.NameCache.AgreesOn`). Nothing more is kept through a look-up, in particular
  not that the cache has an entry for whatever is around a type, so failures and cleared caches
  need no care (`BridgeNames.cached_of_agreesOn`).
* If two types of one binary name have different names, asking for one and then for the other is a
  session that shows it, for the second answer is the first one again
  (`BridgeNames.cached_of_same_binaryName`).
-/

namespace BridgeNames

open Naming

/-! ### The types that are mentioned -/

/-- The declared type that a use mentions. -/
def TypeUse.types (u : TypeUse) : List DeclaredType :=
  match u.leaf with
  | .primitive _ => []
  | .declared t => [t]

/-- The declared types that a method mentions. -/
def Method.types (m : Method) : List DeclaredType := m.parameters.flatMap fun p => p.type.types

/-- The declared types that a request mentions. -/
def Request.types : Request → List DeclaredType
  | typeName t => [t]
  | typeMarker t => [t]
  | useName u _ => u.types
  | methodNames m => m.types
  | methodMarkers m => m.types
  | fileMarker => []

/-- The declared types that a question mentions. -/
def Question.types : Question → List DeclaredType
  | typeName t => [t]
  | computedName t => [t]
  | useName u _ => u.types
  | label u => u.types
  | methodNames m => m.types
  | clear => []

theorem TypeUse.wanted_subset (u : TypeUse) (rootAsId : Bool) : u.wanted rootAsId ⊆ u.types := by
  rw [wanted, types]
  rcases u.leaf with kind | t
  · exact List.Subset.refl []
  · by_cases h : rootAsId ∧ u.arrayLayers = [] ∧ t.isObjectRoot
    · simp only [if_pos h]
      exact List.nil_subset [t]
    · simp only [if_neg h]
      exact List.Subset.refl [t]

theorem labelTypes_subset (parameters : List Parameter) :
    labelTypes parameters ⊆ parameters.flatMap fun p => p.type.types := by
  intro t ht
  obtain ⟨p, hp, htp⟩ := List.mem_flatMap.mp ht
  exact List.mem_flatMap.mpr
    ⟨p, (List.takeWhile_prefix _).subset hp, p.type.wanted_subset true htp⟩

theorem Method.wanted_subset (m : Method) : m.wanted ⊆ m.types := by
  rw [wanted]
  split
  · split
    · exact labelTypes_subset m.parameters
    · split
      · intro t ht
        obtain ⟨p, hp, htp⟩ := List.mem_flatMap.mp ht
        exact List.mem_flatMap.mpr ⟨p, List.mem_of_mem_take hp, p.type.wanted_subset true htp⟩
      · exact List.nil_subset _
  · exact List.nil_subset _

theorem Request.wanted_subset (q : Request) : q.wanted ⊆ q.types := by
  cases q with
  | typeName t => exact List.Subset.refl _
  | typeMarker t => exact List.Subset.refl _
  | useName u rootAsId => exact u.wanted_subset rootAsId
  | methodNames m => exact m.wanted_subset
  | methodMarkers m => exact m.wanted_subset
  | fileMarker => exact List.Subset.refl _

/-! ### Consistent names -/

/-- **Types of one binary name have one name.** -/
def Consistent (U : Set DeclaredType) : Prop :=
  ∀ t ∈ U, ∀ u ∈ U, t.binaryName = u.binaryName → t.name = u.name

/-- The set holds with each type the type around it. -/
def ClosedOutwards (U : Set DeclaredType) : Prop :=
  ∀ t ∈ U, ∀ e, t.enclosing? = some e → e ∈ U

/-- **What the cache holds for a type of the set is its name.** -/
def NameCache.AgreesOn (c : NameCache) (U : Set DeclaredType) : Prop :=
  ∀ t ∈ U, ∀ name, c.find? t.binaryName = some name → name = t.name

variable {U : Set DeclaredType} {t : DeclaredType} {c : NameCache}

theorem NameCache.agreesOn_empty (U : Set DeclaredType) : NameCache.empty.AgreesOn U := by
  intro t _ name hfind
  cases hfind

theorem NameCache.AgreesOn.keep (hU : Consistent U) (hc : c.AgreesOn U) (ht : t ∈ U) :
    (c.keep t.binaryName t.name).AgreesOn U := by
  intro u hu name hfind
  by_cases hkey : u.binaryName = t.binaryName
  · -- the entry is the name kept now, or one kept before that was right already
    rw [hkey, find?_keep_self, Option.some.injEq] at hfind
    have hname : name = t.name := by
      cases hkept : c.find? t.binaryName with
      | none =>
        rw [hkept] at hfind
        exact hfind.symm
      | some kept =>
        rw [hkept] at hfind
        exact hfind.symm.trans (hc t ht kept hkept)
    rw [hname]
    exact hU t ht u hu hkey.symm
  · rw [find?_keep_of_ne c hkey] at hfind
    exact hc u hu name hfind

/-- **A look-up over consistent names gives the name of the type** and leaves a cache that agrees
with the names again. -/
theorem cached_of_agreesOn (hclosed : ClosedOutwards U) (hU : Consistent U) (ht : t ∈ U)
    (hc : c.AgreesOn U) : (cached t c).value = t.name ∧ (cached t c).store.AgreesOn U := by
  revert ht hc
  refine cached_induction (motive := fun t c name c' =>
    t ∈ U → c.AgreesOn U → name = t.name ∧ c'.AgreesOn U) ?_ ?_ ?_ t c
  · intro t c name hfind ht hc
    exact ⟨hc t ht name hfind, hc⟩
  · intro t c _ _ ht hc
    exact ⟨rfl, hc.keep hU ht⟩
  · intro d e c name c' hfixed _ ih ht hc
    obtain ⟨rfl, hc'⟩ := ih (hclosed _ ht e rfl) hc
    rw [← DeclaredType.name_nested hfixed e]
    refine ⟨?_, hc'.keep hU ht⟩
    -- the level's own key may be there already; then it holds the same name
    cases hkept : c'.find? d.binaryName with
    | none => rfl
    | some kept => exact hc' _ ht kept hkept

/-- **The second of two types with one binary name gets the answer of the first.** -/
theorem cached_of_same_binaryName {u : DeclaredType} (h : t.binaryName = u.binaryName)
    (c : NameCache) : (cached u (cached t c).store).value = (cached t c).value := by
  rw [cached_after_cached h c]

/-! ### Sessions with faithful answers -/

/-- **The supplier answers with the types' own names**, for the types of a set and as long as an
invariant of the store holds. -/
def Supplier.Faithful (supplier : Supplier NameCache) (U : Set DeclaredType)
    (Inv : NameCache → Prop) : Prop :=
  ∀ t ∈ U, ∀ c, Inv c → (supplier t c).value = t.name ∧ Inv (supplier t c).store

theorem cached_faithful (hclosed : ClosedOutwards U) (hU : Consistent U) :
    cached.Faithful U (·.AgreesOn U) := fun _ ht _ hc => cached_of_agreesOn hclosed hU ht hc

theorem direct_faithful (U : Set DeclaredType) : direct.Faithful U fun _ => True :=
  fun t _ c _ => ⟨(direct_apply t c).1, trivial⟩

section Sessions

variable {supplier : Supplier NameCache} {Inv : NameCache → Prop}

/-- A namer with a faithful supplier replies with the types' own names. -/
theorem replies_of_faithful {o : NamingOptions} (h : o.supplier.Faithful U Inv) (hc : Inv c)
    {requests : List Request} (hrequests : ∀ q ∈ requests, ∀ t ∈ q.types, t ∈ U) :
    ({ options := o, cache := c } : Namer).replies requests =
      requests.map (Request.replyWith DeclaredType.name o.exactMethodNames) := by
  refine Run.mapM_of_invariant (fun q hq c hc => ?_) hc
  exact Request.answer_of_names (fun t ht => h t (hrequests q hq t (q.wanted_subset ht))) hc

/-- The answer to a question where types have their own names. -/
def Question.answerWith : Question → Answer
  | typeName t => .name t.name
  | computedName t => .name t.name
  | useName u rootAsId => .useName ((u.name rootAsId).eval DeclaredType.name)
  | label u => .useName (u.label.eval DeclaredType.name)
  | methodNames m => .methodNames (m.names.eval DeclaredType.name)
  | clear => .cleared

/-- A name that is worked out instead of asked for is the type's own name as well, for the type
around it is in the set. -/
theorem Supplier.Faithful.compute (h : supplier.Faithful U Inv) (hclosed : ClosedOutwards U)
    (ht : t ∈ U) (hc : Inv c) :
    (supplier.compute t c).value = t.name ∧ Inv (supplier.compute t c).store := by
  rcases Classical.em t.IsSettled with hsettled | hopen
  · obtain ⟨hvalue, hstore⟩ := supplier.compute_of_isSettled hsettled c
    exact ⟨hvalue, hstore.symm ▸ hc⟩
  · obtain ⟨d, e, rfl, hfixed⟩ := DeclaredType.exists_of_not_isSettled hopen
    obtain ⟨hvalue, hstore⟩ := supplier.compute_nested hfixed e c
    obtain ⟨hname, hinv⟩ := h e (hclosed _ ht e rfl) c hc
    rw [hname, ← DeclaredType.name_nested hfixed e] at hvalue
    exact ⟨hvalue, hstore.symm ▸ hinv⟩

/-- A faithful supplier answers a question with the types' own names. -/
theorem Question.put_of_faithful (h : supplier.Faithful U Inv) (hclosed : ClosedOutwards U)
    (hempty : Inv .empty) {q : Question} (hq : ∀ t ∈ q.types, t ∈ U) (hc : Inv c) :
    (q.put supplier c).value = q.answerWith ∧ Inv (q.put supplier c).store := by
  have hasked : ∀ {types : List DeclaredType}, types ⊆ q.types → ∀ t ∈ types, ∀ c, Inv c →
      (supplier t c).value = t.name ∧ Inv (supplier t c).store :=
    fun hsub t ht => h t (hq t (hsub ht))
  cases q with
  | typeName t =>
    obtain ⟨hvalue, hinv⟩ := h t (hq t List.mem_cons_self) c hc
    exact ⟨congrArg Answer.name hvalue, hinv⟩
  | computedName t =>
    obtain ⟨hvalue, hinv⟩ := h.compute hclosed (hq t List.mem_cons_self) hc
    exact ⟨congrArg Answer.name hvalue, hinv⟩
  | useName u rootAsId =>
    obtain ⟨hvalue, hinv⟩ :=
      (u.name_asks rootAsId).run_eq_eval (hasked (u.wanted_subset rootAsId)) hc
    exact ⟨congrArg Answer.useName hvalue, hinv⟩
  | label u =>
    obtain ⟨hvalue, hinv⟩ := u.label_asks.run_eq_eval (hasked (u.wanted_subset true)) hc
    exact ⟨congrArg Answer.useName hvalue, hinv⟩
  | methodNames m =>
    obtain ⟨hvalue, hinv⟩ := m.names_asks.run_eq_eval (hasked m.wanted_subset) hc
    exact ⟨congrArg Answer.methodNames hvalue, hinv⟩
  | clear => exact ⟨rfl, hempty⟩

theorem answers_of_faithful (h : supplier.Faithful U Inv) (hclosed : ClosedOutwards U)
    (hempty : Inv .empty) {questions : List Question}
    (hquestions : ∀ q ∈ questions, ∀ t ∈ q.types, t ∈ U) :
    supplier.answers questions = questions.map Question.answerWith :=
  Run.mapM_of_invariant
    (fun q hq _ hc => q.put_of_faithful h hclosed hempty (hquestions q hq) hc) hempty

end Sessions

/-! ### Caching that does not show -/

/-- **A namer replies as if it kept no names**, in every session about types of the set. -/
def RepliesTransparent (U : Set DeclaredType) : Prop :=
  ∀ (exactMethodNames : Bool) (requests : List Request),
    (∀ q ∈ requests, ∀ t ∈ q.types, t ∈ U) →
    ({ options := { exactMethodNames, cacheTypeNames := true } } : Namer).replies requests =
      ({ options := { exactMethodNames, cacheTypeNames := false } } : Namer).replies requests

/-- **A supplier answers as if it kept no names**, in every session about types of the set. -/
def AnswersTransparent (U : Set DeclaredType) : Prop :=
  ∀ questions : List Question, (∀ q ∈ questions, ∀ t ∈ q.types, t ∈ U) →
    cached.answers questions = direct.answers questions

theorem repliesTransparent_of_consistent (hclosed : ClosedOutwards U) (hU : Consistent U) :
    RepliesTransparent U := by
  intro exactMethodNames requests hrequests
  have hcached : ({ exactMethodNames } : NamingOptions).supplier.Faithful U (·.AgreesOn U) :=
    cached_faithful hclosed hU
  have hdirect : ({ exactMethodNames, cacheTypeNames := false } : NamingOptions).supplier.Faithful
      U fun _ => True := direct_faithful U
  rw [replies_of_faithful hcached (NameCache.agreesOn_empty U) hrequests,
    replies_of_faithful hdirect trivial hrequests]

theorem answersTransparent_of_consistent (hclosed : ClosedOutwards U) (hU : Consistent U) :
    AnswersTransparent U := by
  intro questions hquestions
  rw [answers_of_faithful (cached_faithful hclosed hU) hclosed (NameCache.agreesOn_empty U)
      hquestions,
    answers_of_faithful (direct_faithful U) hclosed trivial hquestions]

/-- Two types of one binary name have one name if asking for them in turn does not show that names
are kept, since what is kept of the first is the answer for the second. -/
theorem name_eq_of_answers {u : DeclaredType} (hkey : t.binaryName = u.binaryName)
    (ht : (cached t NameCache.empty).value = (direct t NameCache.empty).value)
    (hu : (cached u (cached t NameCache.empty).store).value =
      (direct u (direct t NameCache.empty).store).value) :
    t.name = u.name :=
  calc t.name = (cached t NameCache.empty).value := by rw [ht, (direct_apply t _).1]
    _ = (cached u (cached t NameCache.empty).store).value := (cached_of_same_binaryName hkey _).symm
    _ = u.name := by rw [hu, (direct_apply u _).1]

theorem consistent_of_repliesTransparent (h : RepliesTransparent U) : Consistent U := by
  intro t ht u hu hkey
  have hsession := h false [.typeName t, .typeName u] (by simp [Request.types, ht, hu])
  rw [Namer.replies_cons, Namer.replies_cons, Namer.replies_cons, Namer.replies_cons] at hsession
  obtain ⟨hfirst, hrest⟩ := List.cons.inj hsession
  obtain ⟨hsecond, -⟩ := List.cons.inj hrest
  exact name_eq_of_answers hkey (Reply.text.inj hfirst) (Reply.text.inj hsecond)

theorem consistent_of_answersTransparent (h : AnswersTransparent U) : Consistent U := by
  intro t ht u hu hkey
  have hsession := h [.typeName t, .typeName u] (by simp [Question.types, ht, hu])
  obtain ⟨hfirst, hrest⟩ := List.cons.inj hsession
  obtain ⟨hsecond, -⟩ := List.cons.inj hrest
  exact name_eq_of_answers hkey (Answer.name.inj hfirst) (Answer.name.inj hsecond)

/-- **Keeping names does not show exactly where names are consistent.** In one direction every
session comes out as without a cache, failed steps and what follows them included; in the other
either kind of session is enough to tell. -/
theorem consistent_iff_transparent (hclosed : ClosedOutwards U) :
    (Consistent U ↔ RepliesTransparent U ∧ AnswersTransparent U) ∧
      (Consistent U ↔ RepliesTransparent U) ∧ (Consistent U ↔ AnswersTransparent U) := by
  have hreplies : Consistent U ↔ RepliesTransparent U :=
    ⟨repliesTransparent_of_consistent hclosed, consistent_of_repliesTransparent⟩
  have hanswers : Consistent U ↔ AnswersTransparent U :=
    ⟨answersTransparent_of_consistent hclosed, consistent_of_answersTransparent⟩
  exact ⟨⟨fun h => ⟨hreplies.mp h, hanswers.mp h⟩, fun h => hreplies.mpr h.1⟩, hreplies, hanswers⟩

/-- **One stray type is enough.** Over a type and the one around it nothing shows; with a third
type that takes the binary name of the nested one, both kinds of session do. -/
theorem transparent_until_stray :
    let outer := DeclaredType.ofNames "a.B" "B"
    let inner := outer.nestedIn "C"
    let stray := DeclaredType.ofNames "a.B$C" "C"
    (RepliesTransparent {outer, inner} ∧ AnswersTransparent {outer, inner}) ∧
      ¬RepliesTransparent {outer, inner, stray} ∧ ¬AnswersTransparent {outer, inner, stray} := by
  intro outer inner stray
  have hpair : ClosedOutwards {outer, inner} := by
    rintro t (rfl | rfl) e he <;> cases he
    exact Or.inl rfl
  have hall : ClosedOutwards {outer, inner, stray} := by
    rintro t (rfl | rfl | rfl) e he <;> cases he
    exact Or.inl rfl
  have hbinary : outer.binaryName ≠ inner.binaryName := by decide
  have hconsistent : Consistent {outer, inner} := by
    rintro t (rfl | rfl) u (rfl | rfl) hkey
    · rfl
    · exact absurd hkey hbinary
    · exact absurd hkey.symm hbinary
    · rfl
  have hstray : ¬Consistent {outer, inner, stray} := by
    intro h
    have hname := h inner (by simp) stray (by simp) (by decide)
    revert hname
    decide
  refine ⟨(consistent_iff_transparent hpair).1.mp hconsistent, fun h => hstray ?_,
    fun h => hstray ?_⟩
  · exact (consistent_iff_transparent hall).2.1.mpr h
  · exact (consistent_iff_transparent hall).2.2.mpr h

end BridgeNames
