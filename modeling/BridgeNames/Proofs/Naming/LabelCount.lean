import BridgeNames.Proofs.Naming.Noted
import BridgeNames.Proofs.Naming.SelectorKept

/-!
# How many labels there are

Every parameter should have one label, and without a selector it does: the labels are formed from
the parameters one by one. A selector that is given is trusted, so the labels are then as many as
its segments, whatever the parameters are, and a selector has one segment more than it has colons.
Cutting the first segment in two, or taking `initWith` off it, leaves their number as it is. Only a
method without parameters that is no constructor has a selector and no labels at all.

| case | number of labels |
|---|---|
| no selector | the number of parameters |
| a selector, no constructor and no parameters | none |
| any other selector | the number of its colons, and one |

A mismatch is the only thing a warning is logged about, and each is logged exactly once
(`BridgeNames.Method.warnings_names`). Nothing else that happens on the way to the names of a method
is worth one: neither what a computation notes (`BridgeNames.Naming.Unwarned`) nor what a supplier
logs while it answers (`BridgeNames.Supplier.Quiet`).
-/

namespace BridgeNames

open Text

variable {σ α β : Type} {supplier : Supplier σ} {s : σ}

/-! ### Counting segments -/

/-- A text is cut once at every separator in it. -/
theorem Text.Segments.length_others_ofText (sep : Char) (text : List Char) :
    (Segments.ofText sep text).others.length = text.count sep := by
  induction text with
  | nil => rfl
  | cons c rest ih =>
    by_cases hc : c = sep
    · subst hc
      rw [Segments.ofText_cons_self, List.count_cons_self, ← ih]
      rfl
    · rw [Segments.ofText_cons_of_ne hc, List.count_cons_of_ne hc]
      exact ih

theorem length_others_selectorSegments (selector : String) :
    (selectorSegments selector).others.length = selector.toList.count ':' :=
  Segments.length_others_ofText ':' selector.toList

/-! ### Counting labels -/

theorem length_withLabels {parameters : List Parameter} {labels : List String}
    (h : ((withLabels parameters).run supplier s).value = .ok labels) :
    labels.length = parameters.length := by
  induction parameters generalizing labels s with
  | nil =>
    obtain rfl := Except.ok.inj h
    rfl
  | cons p rest ih =>
    obtain ⟨label, -, h⟩ := Naming.run_bind_ok h
    obtain ⟨labels', hlabels, hdone⟩ := Naming.run_bind_ok h
    obtain rfl := Except.ok.inj hdone
    exact congrArg (· + 1) (ih hlabels)

namespace Method

variable {m : Method} {selector : String} {d : MethodNames}

theorem length_derivedLabels {labels : List String}
    (h : (m.derivedLabels.run supplier s).value = .ok labels) :
    labels.length = m.parameters.length := by
  unfold derivedLabels at h
  split at h
  · next first rest hc hparams =>
    obtain ⟨label, -, h⟩ := Naming.run_bind_ok h
    obtain ⟨labels', hlabels, hdone⟩ := Naming.run_bind_ok h
    obtain rfl := Except.ok.inj hdone
    rw [hparams]
    exact congrArg (· + 1) (length_withLabels hlabels)
  · exact length_withLabels h

/-- **Without a selector every parameter has a label.** -/
theorem length_labels_of_none (h : m.selector = none)
    (hd : (m.exposedNames.run supplier s).value = .ok d) :
    d.labels.length = m.parameters.length := by
  rw [exposedNames_of_none h] at hd
  obtain ⟨labels, hlabels, hdone⟩ := Naming.run_bind_ok hd
  obtain rfl := Except.ok.inj hdone
  exact length_derivedLabels hlabels

/-- **With a selector there is a label for each of its segments.** -/
theorem length_labels_of_selector (h : m.selector = some selector)
    (hp : m.isConstructor = true ∨ m.parameters ≠ [])
    (hd : (m.exposedNames.run supplier s).value = .ok d) :
    d.labels.length = selector.toList.count ':' + 1 := by
  have hothers := length_others_selectorSegments selector
  rcases hc : m.isConstructor with _ | _
  · have hp' : m.parameters ≠ [] := hp.resolve_left (by rw [hc]; exact Bool.false_ne_true)
    obtain ⟨front, back, -, rfl⟩ := names_of_parameters h hc hp' hd
    rw [List.length_cons, List.length_map, hothers]
  · obtain ⟨label, rfl, -⟩ := names_of_constructor h hc hd
    rw [List.length_cons, List.length_map, hothers]

/-- **There are more or fewer labels than parameters** exactly where a selector is taken apart
whose segments are more or fewer. -/
theorem fits_eq_false_iff (hd : (m.exposedNames.run supplier s).value = .ok d) :
    d.fits m = false ↔ ∃ selector, m.selector = some selector ∧
      (m.isConstructor = true ∨ m.parameters ≠ []) ∧
      selector.toList.count ':' + 1 ≠ m.parameters.length := by
  rw [MethodNames.fits, beq_eq_false_iff_ne]
  rcases hsel : m.selector with _ | selector
  · simp [length_labels_of_none hsel hd]
  by_cases hp : m.isConstructor = true ∨ m.parameters ≠ []
  · simp [length_labels_of_selector hsel hp hd, hp]
  · -- no label and no parameter
    obtain ⟨hc, hnil⟩ := not_or.mp hp
    have hnil' : m.parameters = [] := Classical.not_not.mp hnil
    obtain rfl := names_of_nil hsel (Bool.eq_false_iff.mpr hc) hnil' hd
    simp [hc, hnil']

end Method

/-! ### What is logged -/

/-- The warnings in a log. -/
def warnings (events : List Event) : List Event := events.filter fun e => e.record.level = .warn

@[simp] theorem warnings_nil : warnings [] = [] := rfl

@[simp] theorem warnings_append (events more : List Event) :
    warnings (events ++ more) = warnings events ++ warnings more :=
  List.filter_append ..

/-- A supplier that answers without a warning. -/
def Supplier.Quiet (supplier : Supplier σ) : Prop := ∀ t s, warnings (supplier t s).events = []

/-- A supplier that works names out level by level is quiet if `around` adds no warning. -/
theorem supplyVia_quiet {around : Declaration → Run σ String → Run σ String}
    (h : ∀ d compute, (∀ s, warnings (compute s).events = []) →
      ∀ s, warnings (around d compute s).events = []) : (supplyVia around).Quiet := by
  intro t
  induction t with
  | topLevel d =>
    refine h d _ fun s => ?_
    cases hfixed : d.fixedName? <;> simp [Declaration.resolve, hfixed, warnings, Event.record]
  | nested d e ih =>
    refine h d _ fun s => ?_
    cases hfixed : d.fixedName? with
    | some name => simp [Declaration.resolve, hfixed, warnings, Event.record]
    | none =>
      have henclosing : warnings (supplyVia around e s).events = [] := ih s
      simp [Declaration.resolve, hfixed, henclosing]
      rfl

theorem direct_quiet : (direct : Supplier σ).Quiet := supplyVia_quiet fun _ _ h => h

theorem cached_quiet : cached.Quiet := by
  refine supplyVia_quiet fun d compute h c => ?_
  unfold NameCache.lookUpOr
  split
  · rfl
  · exact h c

theorem tabled_quiet (table : List (String × String)) : (tabled table : Supplier σ).Quiet :=
  fun _ _ => rfl

namespace Naming

variable {x : Naming α}

/-- **A computation that notes no warning**, whatever it is answered. -/
def Unwarned : Naming α → Prop
  | done _ => True
  | fail _ => True
  | ask _ next => ∀ name, (next name).Unwarned
  | note event next => event.record.level ≠ .warn ∧ next.Unwarned

/-- Notes below the level of a warning are no warnings. -/
theorem Notes.unwarned (hx : x.Notes fun e => e.record.level ≠ .warn) : x.Unwarned := by
  induction x with
  | done a => trivial
  | fail e => trivial
  | ask t next ih => exact fun name => ih name (hx name)
  | note e x ih => exact ⟨hx.1, ih hx.2⟩

/-- The run of such a computation logs no warning, as long as the supplier does not. -/
theorem Unwarned.warnings_run (hx : x.Unwarned) (hquiet : supplier.Quiet) (s : σ) :
    warnings (x.run supplier s).events = [] := by
  induction x generalizing s with
  | done a => rfl
  | fail e => rfl
  | ask t next ih =>
    rw [run_ask, Run.bind_apply, warnings_append, hquiet t s, List.nil_append]
    exact ih _ (hx _) _
  | note e x ih =>
    have he : warnings [e] = [] := by simp [warnings, hx.1]
    rw [run_note, Run.bind_apply, warnings_append, Run.log_apply, he, List.nil_append]
    exact ih hx.2 _

end Naming

namespace Method

variable {m : Method} {selector : String} {d : MethodNames}

/-- **The names of an exposed method are formed without a warning**; only the comparison with the
parameters comes after. -/
theorem exposedNames_unwarned (m : Method) : m.exposedNames.Unwarned :=
  -- a halving is noted, but not as a warning
  (exposedNames_notes fun _ _ => by simp [Event.record]).unwarned

/-- **One warning for a mismatch, and none otherwise.** -/
theorem warnings_names (hquiet : supplier.Quiet) (s : σ) (m : Method) :
    warnings (m.names.run supplier s).events =
      match (m.names.run supplier s).value with
      | .ok (some d) =>
        if d.fits m then []
        else [.labelMismatch m.name m.selector m.parameters.length d.labels.length]
      | _ => [] := by
  rcases hm : m.isExposed with _ | _
  · rw [names_of_not_exposed hm]
    rfl
  have hformed := m.exposedNames_unwarned.warnings_run hquiet s
  rw [names_of_exposed hm, Naming.run_bind, Run.bind_apply, warnings_append, hformed]
  cases (m.exposedNames.run supplier s).value with
  | error e => rfl
  | ok d => cases hfits : d.fits m <;> simp [hfits, warnings, Event.record]

/-- **The number of labels, and the warning about it.**

Without a selector there is a label for each parameter. A selector gives no label to a method
without parameters that is no constructor, and otherwise one more than it has colons. So labels and
parameters differ in number exactly where a selector is taken apart and has the wrong number of
colons; that is always so for a constructor without parameters, and for a method whose selector has
a colon after every segment. One warning says how many there are of each, exactly where they differ;
it is the only one, whether names are worked out anew, kept in a cache or read off a table. -/
theorem names_count_labels {σ : Type} (supplier : Supplier σ) (s : σ) (m : Method) :
    let outcome := m.names.run supplier s
    (∀ d, outcome.value = .ok (some d) →
      (m.selector = none → d.labels.length = m.parameters.length) ∧
      (∀ selector, m.selector = some selector →
        (m.isConstructor = false → m.parameters = [] → d.labels.length = 0) ∧
        (m.isConstructor = true ∨ m.parameters ≠ [] →
          d.labels.length = selector.toList.count ':' + 1) ∧
        (m.isConstructor = true → m.parameters = [] → d.fits m = false) ∧
        (m.isConstructor = false → m.parameters ≠ [] →
          selector.toList.count ':' = m.parameters.length → d.fits m = false)) ∧
      (d.fits m = false ↔ ∃ selector, m.selector = some selector ∧
        (m.isConstructor = true ∨ m.parameters ≠ []) ∧
        selector.toList.count ':' + 1 ≠ m.parameters.length)) ∧
    (supplier.Quiet →
      (∀ d, outcome.value = .ok (some d) → d.fits m = false →
        warnings outcome.events =
          [.labelMismatch m.name m.selector m.parameters.length d.labels.length]) ∧
      ((¬∃ d, outcome.value = .ok (some d) ∧ d.fits m = false) →
        warnings outcome.events = [])) ∧
    (direct : Supplier σ).Quiet ∧ cached.Quiet ∧ ∀ table, (tabled table : Supplier σ).Quiet := by
  intro outcome
  refine ⟨fun d hd => ?_, fun hquiet => ?_, direct_quiet, cached_quiet, tabled_quiet⟩
  · have hnames := run_exposedNames_of_names hd
    have hfits := fits_eq_false_iff hnames
    refine ⟨fun hsel => length_labels_of_none hsel hnames, fun selector hsel => ?_, hfits⟩
    refine ⟨fun hc hp => ?_, fun hp => length_labels_of_selector hsel hp hnames, fun hc hp => ?_,
      fun hc hp hcolons => ?_⟩
    · rw [names_of_nil hsel hc hp hnames]
      rfl
    · exact hfits.mpr ⟨selector, hsel, Or.inl hc, by simp [hp]⟩
    · exact hfits.mpr ⟨selector, hsel, Or.inr hp, by omega⟩
  · have hwarnings : warnings outcome.events = _ := warnings_names hquiet s m
    refine ⟨fun d hd hfits => ?_, fun hnone => ?_⟩
    · rw [hwarnings, show (m.names.run supplier s).value = .ok (some d) from hd]
      simp [hfits]
    · rw [hwarnings]
      split
      · next d hd =>
        have hfits : d.fits m = true := by
          rw [← Bool.not_eq_false]
          exact fun hfalse => hnone ⟨d, hd, hfalse⟩
        rw [if_pos hfits]
      · rfl

end Method

end BridgeNames
