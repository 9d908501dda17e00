import BridgeNames.Proofs.Naming.Asking

/-!
# What a computation notes, and what its run logs

The log of a run has two sources: what the computation notes itself, and what the supplier logs
while it answers. A name of a use notes nothing. A method may note that it halved the first segment
of its selector, and then that its labels do not fit its parameters; nothing else is noted on the
way to its names (`BridgeNames.Method.names_notes`).

So whoever looks for events of another kind finds those of the supplier alone
(`BridgeNames.Naming.Asks.filterMap_events`): they are the events of asking for the types that the
computation asks for, one after the other, and whatever it does in between does not matter. What a
computation asks for is known through the store only, so for this the supplier keeps a journal in its
store (`BridgeNames.Supplier.journaling`).
-/

namespace BridgeNames

variable {σ α β γ : Type} {allowed : Event → Prop}

/-! ### What is noted -/

namespace Naming

/-- **A computation notes allowed events only**, whatever it is answered. -/
def Notes (allowed : Event → Prop) : Naming α → Prop
  | done _ => True
  | fail _ => True
  | ask _ next => ∀ name, (next name).Notes allowed
  | note event next => allowed event ∧ next.Notes allowed

theorem Notes.bind {x : Naming α} {f : α → Naming β} (hx : x.Notes allowed)
    (hf : ∀ a, (f a).Notes allowed) : (x >>= f).Notes allowed := by
  induction x with
  | done a => exact hf a
  | fail e => trivial
  | ask t next ih => exact fun name => ih name (hx name)
  | note e x ih => exact ⟨hx.1, ih hx.2⟩

end Naming

/-- The name of a use is formed without a note. -/
theorem TypeUse.name_notes (use : TypeUse) (rootAsId : Bool) : (use.name rootAsId).Notes allowed := by
  induction use generalizing rootAsId with
  | primitive kind => cases kind <;> trivial
  | array element dimensions ih => exact (ih false).bind fun _ => trivial
  | declared type =>
    rw [TypeUse.name]
    split
    · trivial
    · exact fun _ => trivial
  | typeVariable bound ih => exact ih rootAsId

theorem TypeUse.label_notes (use : TypeUse) : use.label.Notes allowed :=
  (use.name_notes true).bind fun _ => trivial

theorem withLabels_notes (parameters : List Parameter) : (withLabels parameters).Notes allowed := by
  induction parameters with
  | nil => trivial
  | cons p rest ih => exact p.type.label_notes.bind fun _ => ih.bind fun _ => trivial

namespace Method

variable {m : Method}

theorem derivedLabels_notes (m : Method) : m.derivedLabels.Notes allowed := by
  unfold derivedLabels
  split
  · exact (TypeUse.label_notes _).bind fun _ => (withLabels_notes _).bind fun _ => trivial
  · exact withLabels_notes _

theorem openingLabel_notes (m : Method) (selector : String) :
    (m.openingLabel selector).Notes allowed := by
  unfold openingLabel
  split
  · trivial
  · exact TypeUse.label_notes _

theorem constructorNames_notes (m : Method) (selector : String) :
    (m.constructorNames selector).Notes allowed := by
  simp only [constructorNames]
  split
  · trivial
  · exact (m.openingLabel_notes selector).bind fun _ => trivial

section Halving

variable (hhalved : ∀ selector segment, allowed (.segmentHalved m.name selector segment))
include hhalved

theorem selectedNames_notes (selector : String) : (m.selectedNames selector).Notes allowed := by
  refine Naming.Notes.bind ?_ fun _ => trivial
  unfold cutFirst
  split
  · trivial
  · split
    · exact ⟨hhalved _ _, trivial⟩
    · trivial

/-- **The names of an exposed method are formed with no other note than that a segment is
halved.** -/
theorem exposedNames_notes : m.exposedNames.Notes allowed := by
  unfold exposedNames
  split
  · exact m.derivedLabels_notes.bind fun _ => trivial
  · split
    · exact m.constructorNames_notes _
    · split
      · trivial
      · exact selectedNames_notes hhalved _

/-- **The names of a method come with these two notes at most**, that a segment is halved and that
labels and parameters differ in number. -/
theorem names_notes
    (hmismatch : ∀ labels, allowed (.labelMismatch m.name m.selector m.parameters.length labels)) :
    m.names.Notes allowed := by
  unfold names
  split
  · refine (exposedNames_notes hhalved).bind fun d => ?_
    split
    · exact ⟨hmismatch _, trivial⟩
    · trivial
  · trivial

end Halving

end Method

/-! ### What a run logs -/

/-- What a supplier logs while it is asked for some types, one after the other. -/
def Supplier.logAfter (supplier : Supplier σ) : List DeclaredType → σ → List Event
  | [], _ => []
  | t :: types, s => (supplier t s).events ++ supplier.logAfter types (supplier t s).store

theorem Supplier.logAfter_append (supplier : Supplier σ) (types more : List DeclaredType) (s : σ) :
    supplier.logAfter (types ++ more) s =
      supplier.logAfter types s ++ supplier.logAfter more (supplier.storeAfter types s) := by
  induction types generalizing s with
  | nil => rfl
  | cons t types ih =>
    rw [List.cons_append, logAfter, logAfter, ih, storeAfter_cons, List.append_assoc]

/-- The same supplier, with all that it has logged in its store. -/
def Supplier.journaling (supplier : Supplier σ) : Supplier (σ × List Event) := fun t s =>
  let outcome := supplier t s.1
  ⟨outcome.value, (outcome.store, s.2 ++ outcome.events), outcome.events⟩

theorem Supplier.storeAfter_journaling (supplier : Supplier σ) (types : List DeclaredType) (s : σ)
    (journal : List Event) :
    supplier.journaling.storeAfter types (s, journal) =
      (supplier.storeAfter types s, journal ++ supplier.logAfter types s) := by
  induction types generalizing s journal with
  | nil => simp [logAfter]
  | cons t types ih => simp [ih, journaling, logAfter]

namespace Naming

/-- Events that a computation does not note are in the log of its run where they are in the
journal. -/
theorem Notes.filterMap_journal {x : Naming α} {pick : Event → Option γ}
    (hx : x.Notes fun e => pick e = none) (supplier : Supplier σ) (s : σ) (journal : List Event) :
    (x.run supplier.journaling (s, journal)).store.2.filterMap pick =
      journal.filterMap pick ++ (x.run supplier s).events.filterMap pick := by
  induction x generalizing s journal with
  | done a => simp
  | fail e => simp
  | ask t next ih =>
    have hrest := ih (supplier t s).value (hx _) (supplier t s).store
      (journal ++ (supplier t s).events)
    rw [run_ask, run_ask, Run.bind_apply, Run.bind_apply, List.filterMap_append, ← List.append_assoc,
      ← List.filterMap_append]
    exact hrest
  | note e x ih =>
    have hrest := ih hx.2 s journal
    rw [run_note, run_note, Run.bind_apply, Run.bind_apply, List.filterMap_append]
    simpa [hx.1] using hrest

/-- **Events that a computation does not note are logged as its types are asked for**, one after the
other. -/
theorem Asks.filterMap_events {x : Naming α} {types : List DeclaredType} {pick : Event → Option γ}
    (h : x.Asks types) (hx : x.Notes fun e => pick e = none) (supplier : Supplier σ) (s : σ) :
    (x.run supplier s).events.filterMap pick = (supplier.logAfter types s).filterMap pick := by
  have hjournal := hx.filterMap_journal supplier s []
  rw [(h _ supplier.journaling (s, [])).1, Supplier.storeAfter_journaling] at hjournal
  simpa using hjournal.symm

end Naming

end BridgeNames
