import BridgeNames.Proofs.Naming.MethodCases

/-!
# What the names of a method take, and when there are none

For each of the cases of `BridgeNames.Proofs.Naming.MethodCases` this file says which types are
asked for and how the computation ends. The labels of parameters are worked out from left to right
and stop at the first one that is `void`, so the types asked for until then are
`BridgeNames.labelTypes`; the types asked for by a whole method are `BridgeNames.Method.wanted`.

Whether a method has names, and which error it has otherwise, is settled without a look at any name
of a type: by whether it is exposed, by whether it is a constructor, by the leaves of its parameters
and by the first segment of its selector.
-/

namespace BridgeNames

open Text

/-! ### Labels of parameters -/

/-- **The types that labels take**: those of the parameters before the first `void` one. -/
def labelTypes (parameters : List Parameter) : List DeclaredType :=
  (parameters.takeWhile fun p => ¬p.type.IsVoid).flatMap fun p => p.type.wanted true

@[simp] theorem labelTypes_nil : labelTypes [] = [] := rfl

theorem labelTypes_cons_of_isVoid {p : Parameter} (h : p.type.IsVoid) (rest : List Parameter) :
    labelTypes (p :: rest) = [] := by
  simp [labelTypes, h]

theorem labelTypes_cons {p : Parameter} (h : ¬p.type.IsVoid) (rest : List Parameter) :
    labelTypes (p :: rest) = p.type.wanted true ++ labelTypes rest := by
  simp [labelTypes, h]

section Labels

variable {p : Parameter} {parameters rest : List Parameter}

/-- One label before others, if there is no `void` among all of them. -/
theorem labels_asksThen (shape : String → String) (hp : ¬p.type.IsVoid)
    (hrest : (withLabels rest).AsksThen (labelTypes rest) fun r => ∃ labels, r = .ok labels) :
    (do
      let label ← p.type.label
      let labels ← withLabels rest
      return shape label :: labels : Naming (List String)).AsksThen
        (labelTypes (p :: rest)) fun r => ∃ labels, r = .ok labels := by
  rw [labelTypes_cons hp]
  exact (TypeUse.label_asksThen hp).bind_ok fun label => hrest.bind_done

/-- One label before others, if there is a `void` among them. -/
theorem labels_asksThen_of_isVoid (shape : String → String)
    (hrest : (∃ q ∈ rest, q.type.IsVoid) →
      (withLabels rest).AsksThen (labelTypes rest) (· = .error (.unexpectedPrimitive .void)))
    (h : ∃ q ∈ p :: rest, q.type.IsVoid) :
    (do
      let label ← p.type.label
      let labels ← withLabels rest
      return shape label :: labels : Naming (List String)).AsksThen
        (labelTypes (p :: rest)) (· = .error (.unexpectedPrimitive .void)) := by
  by_cases hp : p.type.IsVoid
  · rw [labelTypes_cons_of_isVoid hp]
    exact (TypeUse.label_asksThen_of_isVoid hp).bind_error
  · have hlater : ∃ q ∈ rest, q.type.IsVoid := by
      obtain ⟨q, hq, hvoid⟩ := h
      rcases List.mem_cons.mp hq with rfl | hq
      · exact absurd hvoid hp
      · exact ⟨q, hq, hvoid⟩
    rw [labelTypes_cons hp]
    exact (TypeUse.label_asksThen hp).bind_ok fun label => (hrest hlater).bind_error

theorem withLabels_asksThen (h : ∀ p ∈ parameters, ¬p.type.IsVoid) :
    (withLabels parameters).AsksThen (labelTypes parameters) fun r => ∃ labels, r = .ok labels := by
  induction parameters with
  | nil => exact Naming.asksThen_done ⟨_, rfl⟩
  | cons p rest ih =>
    obtain ⟨hp, hrest⟩ := List.forall_mem_cons.mp h
    exact labels_asksThen ("with" ++ ·) hp (ih hrest)

theorem withLabels_asksThen_of_isVoid (h : ∃ p ∈ parameters, p.type.IsVoid) :
    (withLabels parameters).AsksThen (labelTypes parameters)
      (· = .error (.unexpectedPrimitive .void)) := by
  induction parameters with
  | nil =>
    obtain ⟨p, hp, -⟩ := h
    cases hp
  | cons p rest ih => exact labels_asksThen_of_isVoid ("with" ++ ·) ih h

end Labels

namespace Method

variable {m : Method} {selector : String}

/-- **Labels are derived from types where none of them is `void`**, for constructors as well. -/
theorem derivedLabels_asksThen (h : ∀ p ∈ m.parameters, ¬p.type.IsVoid) :
    m.derivedLabels.AsksThen (labelTypes m.parameters) fun r => ∃ labels, r = .ok labels := by
  unfold derivedLabels
  split
  · next first rest hc hparams =>
    rw [hparams] at h ⊢
    obtain ⟨hfirst, hrest⟩ := List.forall_mem_cons.mp h
    exact labels_asksThen id hfirst (withLabels_asksThen hrest)
  · exact withLabels_asksThen h

theorem derivedLabels_asksThen_of_isVoid (h : ∃ p ∈ m.parameters, p.type.IsVoid) :
    m.derivedLabels.AsksThen (labelTypes m.parameters)
      (· = .error (.unexpectedPrimitive .void)) := by
  unfold derivedLabels
  split
  · next first rest hc hparams =>
    rw [hparams] at h ⊢
    exact labels_asksThen_of_isVoid id withLabels_asksThen_of_isVoid h
  · exact withLabels_asksThen_of_isVoid h

/-! ### From the names to the answer

A mismatch of labels and parameters is noted, but changes neither what is asked for nor how the
computation ends. -/

theorem names_asksThen {types : List DeclaredType} (hm : m.isExposed = true)
    (h : m.exposedNames.AsksThen types fun r => ∃ names, r = .ok names) :
    m.names.AsksThen types fun r => ∃ names, r = .ok (some names) := by
  rw [names_of_exposed hm, ← List.append_nil types]
  refine h.bind_ok fun names => ?_
  have hdone : (Naming.done (some names)).AsksThen [] fun r => ∃ names, r = .ok (some names) :=
    Naming.asksThen_done ⟨names, rfl⟩
  by_cases hfits : names.fits m
  · rw [if_pos hfits]
    exact hdone
  · rw [if_neg hfits]
    exact hdone.note _

theorem names_asksThen_error {types : List DeclaredType} {e : NamingError}
    (hm : m.isExposed = true) (h : m.exposedNames.AsksThen types (· = .error e)) :
    m.names.AsksThen types (· = .error e) := by
  rw [names_of_exposed hm]
  exact h.bind_error

/-! ### Each case -/

/-- Without a selector every parameter has to have a label. -/
theorem names_asksThen_of_none (hm : m.isExposed = true) (h : m.selector = none)
    (hvoid : ∀ p ∈ m.parameters, ¬p.type.IsVoid) :
    m.names.AsksThen (labelTypes m.parameters) fun r => ∃ names, r = .ok (some names) := by
  refine names_asksThen hm ?_
  rw [exposedNames_of_none h]
  exact (derivedLabels_asksThen hvoid).bind_done

theorem names_asksThen_of_none_of_isVoid (hm : m.isExposed = true) (h : m.selector = none)
    (hvoid : ∃ p ∈ m.parameters, p.type.IsVoid) :
    m.names.AsksThen (labelTypes m.parameters) (· = .error (.unexpectedPrimitive .void)) := by
  refine names_asksThen_error hm ?_
  rw [exposedNames_of_none h]
  exact (derivedLabels_asksThen_of_isVoid hvoid).bind_error

/-- A selector that opens with `initWith` names a constructor by itself. -/
theorem names_asksThen_of_initWith (hm : m.isExposed = true) (h : m.selector = some selector)
    (hc : m.isConstructor = true) (hopen : "initWith".toList <+: (selectorSegments selector).first) :
    m.names.AsksThen [] fun r => ∃ names, r = .ok (some names) := by
  obtain ⟨rest, hrest⟩ := hopen
  refine names_asksThen hm ?_
  rw [exposedNames_of_initWith h hc hrest.symm]
  exact Naming.asksThen_done ⟨_, rfl⟩

/-- Any other selector of a constructor takes a label from the first parameter. -/
theorem names_asksThen_of_constructor {p : Parameter} {rest : List Parameter}
    (hm : m.isExposed = true) (h : m.selector = some selector) (hc : m.isConstructor = true)
    (hopen : ¬"initWith".toList <+: (selectorSegments selector).first)
    (hp : m.parameters = p :: rest) (hvoid : ¬p.type.IsVoid) :
    m.names.AsksThen (p.type.wanted true) fun r => ∃ names, r = .ok (some names) := by
  refine names_asksThen hm ?_
  rw [exposedNames_of_constructor h hc hopen, openingLabel, hp]
  exact (TypeUse.label_asksThen hvoid).bind_done

theorem names_asksThen_of_constructor_of_isVoid {p : Parameter} {rest : List Parameter}
    (hm : m.isExposed = true) (h : m.selector = some selector) (hc : m.isConstructor = true)
    (hopen : ¬"initWith".toList <+: (selectorSegments selector).first)
    (hp : m.parameters = p :: rest) (hvoid : p.type.IsVoid) :
    m.names.AsksThen [] (· = .error (.unexpectedPrimitive .void)) := by
  refine names_asksThen_error hm ?_
  rw [exposedNames_of_constructor h hc hopen, openingLabel, hp]
  exact (TypeUse.label_asksThen_of_isVoid hvoid).bind_error

theorem names_asksThen_of_constructor_of_nil (hm : m.isExposed = true)
    (h : m.selector = some selector) (hc : m.isConstructor = true)
    (hopen : ¬"initWith".toList <+: (selectorSegments selector).first) (hp : m.parameters = []) :
    m.names.AsksThen [] (· = .error (.constructorWithoutParameters selector)) := by
  refine names_asksThen_error hm ?_
  rw [exposedNames_of_constructor h hc hopen, openingLabel, hp]
  exact (Naming.asksThen_fail rfl).bind_error

/-- A selector names a method without parameters as it is. -/
theorem names_asksThen_of_nil (hm : m.isExposed = true) (h : m.selector = some selector)
    (hc : m.isConstructor = false) (hp : m.parameters = []) :
    m.names.AsksThen [] fun r => ∃ names, r = .ok (some names) := by
  refine names_asksThen hm ?_
  rw [exposedNames_of_nil h hc hp]
  exact Naming.asksThen_done ⟨_, rfl⟩

/-- A selector of a method with parameters has to have a first segment that can be cut. -/
theorem names_asksThen_of_long (hm : m.isExposed = true) (h : m.selector = some selector)
    (hc : m.isConstructor = false) (hp : m.parameters ≠ [])
    (hlong : 1 < units (selectorSegments selector).first) :
    m.names.AsksThen [] fun r => ∃ names, r = .ok (some names) := by
  have hcut : (m.cutFirst selector (selectorSegments selector).first).AsksThen []
      fun r => ∃ cut, r = .ok cut := by
    obtain ⟨front, back, -, hcut | hcut⟩ := cutFirst_of_long m selector hlong
    · rw [hcut]
      exact Naming.asksThen_done ⟨_, rfl⟩
    · rw [hcut]
      exact (Naming.asksThen_done ⟨_, rfl⟩).note _
  refine names_asksThen hm ?_
  rw [exposedNames_of_parameters h hc hp, selectedNames]
  exact hcut.bind_done

theorem names_asksThen_of_short (hm : m.isExposed = true) (h : m.selector = some selector)
    (hc : m.isConstructor = false) (hp : m.parameters ≠ [])
    (hshort : units (selectorSegments selector).first ≤ 1) :
    m.names.AsksThen []
      (· = .error (.segmentTooShort (String.ofList (selectorSegments selector).first))) := by
  refine names_asksThen_error hm ?_
  rw [exposedNames_of_parameters h hc hp, selectedNames, cutFirst_of_short hshort]
  exact (Naming.asksThen_fail rfl).bind_error

/-! ### When there are no names -/

/-- An answer is one error exactly under a condition, and otherwise holds names. -/
def FailsExactly (condition : Prop) (error : NamingError)
    (answer : Except NamingError (Option MethodNames)) : Prop :=
  (answer = .error error ↔ condition) ∧ (¬condition → ∃ names, answer = .ok (some names))

theorem failsExactly_of_cases {condition : Prop} {error : NamingError}
    {answer : Except NamingError (Option MethodNames)}
    (hbad : condition → answer = .error error)
    (hgood : ¬condition → ∃ names, answer = .ok (some names)) :
    FailsExactly condition error answer := by
  refine ⟨⟨fun herror => ?_, hbad⟩, hgood⟩
  rcases Classical.em condition with h | h
  · exact h
  · obtain ⟨names, hnames⟩ := hgood h
    rw [hnames] at herror
    cases herror

theorem isExposed_eq_true_iff (m : Method) : m.isExposed = true ↔
    (m.visibility = .publicAccess ∨ m.visibility = .protectedAccess) ∧
      m.isGeneratedOverride = false := by
  cases hv : m.visibility <;> simp [isExposed, hv, Visibility.isReachable]

/-- **When a method has names, and which error it has otherwise**, under every supplier of names.

What a selector opens with is read off its first segment, which ends before the first colon. A
method that is not exposed is skipped, whatever else it is. An exposed one
* without a selector fails on a `void` parameter, wherever it stands;
* that is a constructor fails in no way if its selector opens with `initWith`, and on a missing or
  `void` first parameter if it opens otherwise;
* that is no constructor fails in no way if there are no parameters, and on a first segment of at
  most one unit if there are some. -/
theorem names_outcome {σ : Type} (supplier : Supplier σ) (s : σ) (m : Method) :
    let answer := (m.names.run supplier s).value
    (m.visibility = .privateAccess ∨ m.visibility = .packageAccess ∨
        m.isGeneratedOverride = true → answer = .ok none) ∧
    ((m.visibility = .publicAccess ∨ m.visibility = .protectedAccess) ∧
        m.isGeneratedOverride = false →
      (m.selector = none →
        FailsExactly (∃ p ∈ m.parameters, p.type.IsVoid) (.unexpectedPrimitive .void) answer) ∧
      ∀ selector, m.selector = some selector →
        let segment := selector.toList.takeWhile (· ≠ ':')
        (m.isConstructor = true → "initWith".toList <+: segment →
          ∃ names, answer = .ok (some names)) ∧
        (m.isConstructor = true → ¬"initWith".toList <+: segment →
          (answer = .error (.constructorWithoutParameters selector) ↔ m.parameters = []) ∧
          (answer = .error (.unexpectedPrimitive .void) ↔
            ∃ p, m.parameters.head? = some p ∧ p.type.IsVoid) ∧
          ∀ p, m.parameters.head? = some p → ¬p.type.IsVoid →
            ∃ names, answer = .ok (some names)) ∧
        (m.isConstructor = false → m.parameters = [] → ∃ names, answer = .ok (some names)) ∧
        (m.isConstructor = false → m.parameters ≠ [] →
          FailsExactly (units segment ≤ 1) (.segmentTooShort (String.ofList segment)) answer)) := by
  intro answer
  refine ⟨fun hskip => ?_, fun hexposed => ?_⟩
  · have hm : m.isExposed = false := by
      rcases hskip with hv | hv | hv <;> simp [isExposed, hv, Visibility.isReachable]
    simp only [answer, names_of_not_exposed hm, Naming.run_done]
  have hm := (isExposed_eq_true_iff m).mpr hexposed
  refine ⟨fun hnone => ?_, fun selector hsome => ?_⟩
  · -- no selector
    refine failsExactly_of_cases (fun hvoid => ?_) (fun hvoid => ?_)
    · exact (names_asksThen_of_none_of_isVoid hm hnone hvoid σ supplier s).2
    · have hall : ∀ p ∈ m.parameters, ¬p.type.IsVoid := fun p hp h => hvoid ⟨p, hp, h⟩
      exact (names_asksThen_of_none hm hnone hall σ supplier s).2
  intro segment
  have hsegment : (selectorSegments selector).first = segment := first_selectorSegments selector
  rw [← hsegment]
  refine ⟨?_, ?_, ?_, ?_⟩
  · -- a constructor, and the selector opens with `initWith`
    intro hc hopen
    exact (names_asksThen_of_initWith hm hsome hc hopen σ supplier s).2
  · -- a constructor and another selector: the first parameter decides
    intro hc hopen
    rcases hp : m.parameters with _ | ⟨p, rest⟩
    · have herror := (names_asksThen_of_constructor_of_nil hm hsome hc hopen hp σ supplier s).2
      simp [answer, herror]
    · by_cases hvoid : p.type.IsVoid
      · have herror :=
          (names_asksThen_of_constructor_of_isVoid hm hsome hc hopen hp hvoid σ supplier s).2
        simp [answer, herror, hvoid]
      · obtain ⟨names, hnames⟩ :=
          (names_asksThen_of_constructor hm hsome hc hopen hp hvoid σ supplier s).2
        simp [answer, hnames, hvoid]
  · -- no constructor, and no parameters
    intro hc hp
    exact (names_asksThen_of_nil hm hsome hc hp σ supplier s).2
  · -- no constructor, but parameters: the first segment decides
    intro hc hp
    refine failsExactly_of_cases (fun hshort => ?_) (fun hlong => ?_)
    · exact (names_asksThen_of_short hm hsome hc hp hshort σ supplier s).2
    · have hlong' : 1 < units (selectorSegments selector).first := by omega
      exact (names_asksThen_of_long hm hsome hc hp hlong' σ supplier s).2

/-! ### What a method asks for -/

/-- **The types that the names of a method take.** Without a selector they are those of the
labels. With one a type is taken in one case only, by the first parameter of a constructor whose
selector does not open with `initWith`. -/
def wanted (m : Method) : List DeclaredType :=
  if m.isExposed then
    match m.selector with
    | none => labelTypes m.parameters
    | some selector =>
      if m.isConstructor ∧ ¬"initWith".toList <+: selector.toList.takeWhile (· ≠ ':') then
        (m.parameters.take 1).flatMap fun p => p.type.wanted true
      else []
  else []

theorem wanted_of_none (hm : m.isExposed = true) (h : m.selector = none) :
    m.wanted = labelTypes m.parameters := by
  rw [wanted, if_pos hm, h]

theorem wanted_of_constructor (hm : m.isExposed = true) (h : m.selector = some selector)
    (hc : m.isConstructor = true)
    (hopen : ¬"initWith".toList <+: (selectorSegments selector).first) :
    m.wanted = (m.parameters.take 1).flatMap fun p => p.type.wanted true := by
  rw [first_selectorSegments] at hopen
  rw [wanted, if_pos hm, h]
  exact if_pos ⟨hc, hopen⟩

theorem wanted_of_selector (hm : m.isExposed = true) (h : m.selector = some selector)
    (hopen : m.isConstructor = true → "initWith".toList <+: (selectorSegments selector).first) :
    m.wanted = [] := by
  rw [first_selectorSegments] at hopen
  rw [wanted, if_pos hm, h]
  exact if_neg fun hother => hother.2 (hopen hother.1)

/-- **A method asks for these types, in order and for nothing else**, whether it has names or
not. -/
theorem names_asks (m : Method) : m.names.Asks m.wanted := by
  rcases hm : m.isExposed with _ | _
  · rw [names_of_not_exposed hm, wanted, hm]
    exact Naming.asksThen_done trivial
  rcases hsel : m.selector with _ | selector
  · rw [wanted_of_none hm hsel]
    rcases Classical.em (∃ p ∈ m.parameters, p.type.IsVoid) with hvoid | hvoid
    · exact (names_asksThen_of_none_of_isVoid hm hsel hvoid).asks
    · exact (names_asksThen_of_none hm hsel fun p hp h => hvoid ⟨p, hp, h⟩).asks
  rcases hc : m.isConstructor with _ | _
  · rw [wanted_of_selector hm hsel fun hc' => by rw [hc] at hc'; cases hc']
    by_cases hp : m.parameters = []
    · exact (names_asksThen_of_nil hm hsel hc hp).asks
    · rcases Nat.lt_or_ge 1 (units (selectorSegments selector).first) with hlong | hshort
      · exact (names_asksThen_of_long hm hsel hc hp hlong).asks
      · exact (names_asksThen_of_short hm hsel hc hp hshort).asks
  by_cases hopen : "initWith".toList <+: (selectorSegments selector).first
  · rw [wanted_of_selector hm hsel fun _ => hopen]
    exact (names_asksThen_of_initWith hm hsel hc hopen).asks
  rw [wanted_of_constructor hm hsel hc hopen]
  rcases hp : m.parameters with _ | ⟨p, rest⟩
  · exact (names_asksThen_of_constructor_of_nil hm hsel hc hopen hp).asks
  · rw [List.take_succ_cons, List.take_zero, List.flatMap_cons, List.flatMap_nil, List.append_nil]
    by_cases hvoid : p.type.IsVoid
    · rw [TypeUse.wanted_of_isVoid hvoid]
      exact (names_asksThen_of_constructor_of_isVoid hm hsel hc hopen hp hvoid).asks
    · exact (names_asksThen_of_constructor hm hsel hc hopen hp hvoid).asks

end Method

end BridgeNames
