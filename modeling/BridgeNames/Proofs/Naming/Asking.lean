import BridgeNames.Supply.Basic

/-!
# What a computation asks for, and how it ends

A naming computation is worked out against a supplier, and nothing is known about a supplier but
that it answers: the answers may depend on its store, and two answers for one type may differ.
What a computation does whoever answers it is said by `BridgeNames.Naming.AsksThen`: the types it
asks for, in order, and a property of how it ends. The types are observed through the store – it
is the one that asking for exactly these types, in this order, leaves behind – so a supplier that
writes down what it is asked for sees that very list (`BridgeNames.Naming.asked_eq`).

The property is built up along a computation by one rule, `BridgeNames.Naming.AsksThen.bind`. It
covers a first part that may fail as well, for then what would have followed is not asked for.

Where a supplier answers with fixed names, a run is an evaluation; `BridgeNames.Naming.run_eq_eval`
needs this only for the types that are asked for, and only while an invariant of the store holds.
-/

namespace BridgeNames

variable {σ α β : Type}

/-! ### Runs of computations put together -/

namespace Naming

@[simp] theorem run_done (supplier : Supplier σ) (a : α) (s : σ) :
    (done a).run supplier s = ⟨.ok a, s, []⟩ := rfl

@[simp] theorem run_fail (supplier : Supplier σ) (e : NamingError) (s : σ) :
    (fail e : Naming α).run supplier s = ⟨.error e, s, []⟩ := rfl

@[simp] theorem run_ask (supplier : Supplier σ) (t : DeclaredType) (next : String → Naming α)
    (s : σ) :
    (ask t next).run supplier s =
      (supplier t >>= fun name => (next name).run supplier) s := rfl

@[simp] theorem run_note (supplier : Supplier σ) (e : Event) (x : Naming α) (s : σ) :
    (note e x).run supplier s = (Run.log e >>= fun _ => x.run supplier) s := rfl

/-- **A run goes on after a value and stops after an error.** -/
theorem run_bind (supplier : Supplier σ) (x : Naming α) (f : α → Naming β) :
    (x >>= f).run supplier = x.run supplier >>= fun outcome =>
      match outcome with
      | .ok a => (f a).run supplier
      | .error e => pure (.error e) := by
  induction x with
  | done a => rfl
  | fail e => rfl
  | ask t next ih =>
    rw [ask_bind, Naming.run, Naming.run, bind_assoc]
    exact congrArg _ (funext ih)
  | note e x ih =>
    rw [note_bind, Naming.run, Naming.run, bind_assoc, ih]

/-- A value at the end is made from a value on the way. -/
theorem run_bind_ok {supplier : Supplier σ} {x : Naming α} {f : α → Naming β} {s : σ} {b : β}
    (h : ((x >>= f).run supplier s).value = .ok b) :
    ∃ a, (x.run supplier s).value = .ok a ∧
      ((f a).run supplier (x.run supplier s).store).value = .ok b := by
  rw [run_bind, Run.bind_apply] at h
  cases hvalue : (x.run supplier s).value with
  | ok a =>
    rw [hvalue] at h
    exact ⟨a, rfl, h⟩
  | error e =>
    rw [hvalue] at h
    cases h

end Naming

/-! ### The types that are asked for -/

/-- The store after a supplier has been asked for some types, one after the other. -/
def Supplier.storeAfter (supplier : Supplier σ) (types : List DeclaredType) (s : σ) : σ :=
  types.foldl (fun s t => (supplier t s).store) s

@[simp] theorem Supplier.storeAfter_nil (supplier : Supplier σ) (s : σ) :
    supplier.storeAfter [] s = s := rfl

@[simp] theorem Supplier.storeAfter_cons (supplier : Supplier σ) (t : DeclaredType)
    (types : List DeclaredType) (s : σ) :
    supplier.storeAfter (t :: types) s = supplier.storeAfter types (supplier t s).store := rfl

@[simp] theorem Supplier.storeAfter_append (supplier : Supplier σ) (types more : List DeclaredType)
    (s : σ) :
    supplier.storeAfter (types ++ more) s =
      supplier.storeAfter more (supplier.storeAfter types s) :=
  List.foldl_append

namespace Naming

/-- **A computation asks for the given types, in order and for nothing else, and ends as `ends`
says**, whoever answers. -/
def AsksThen (x : Naming α) (types : List DeclaredType)
    (ends : Except NamingError α → Prop) : Prop :=
  ∀ (σ : Type) (supplier : Supplier σ) (s : σ),
    (x.run supplier s).store = supplier.storeAfter types s ∧ ends (x.run supplier s).value

/-- **A computation asks for the given types, in order and for nothing else**, whoever answers and
however it ends. -/
def Asks (x : Naming α) (types : List DeclaredType) : Prop := x.AsksThen types fun _ => True

variable {x : Naming α} {types more : List DeclaredType}
  {ends ends' : Except NamingError α → Prop} {finish : Except NamingError β → Prop}

theorem AsksThen.mono (h : x.AsksThen types ends) (himp : ∀ r, ends r → ends' r) :
    x.AsksThen types ends' := by
  intro σ supplier s
  obtain ⟨hstore, hends⟩ := h σ supplier s
  exact ⟨hstore, himp _ hends⟩

theorem AsksThen.asks (h : x.AsksThen types ends) : x.Asks types := h.mono fun _ _ => trivial

theorem asksThen_done {a : α} (h : ends (.ok a)) : (done a).AsksThen [] ends :=
  fun _ _ _ => ⟨rfl, h⟩

theorem asksThen_fail {e : NamingError} (h : ends (.error e)) : (fail e).AsksThen [] ends :=
  fun _ _ _ => ⟨rfl, h⟩

theorem asksThen_nameOf (t : DeclaredType) :
    (nameOf t).AsksThen [t] fun r => ∃ name, r = .ok name :=
  fun _ supplier s => ⟨rfl, (supplier t s).value, rfl⟩

theorem AsksThen.note (h : x.AsksThen types ends) (e : Event) :
    (Naming.note e x).AsksThen types ends := by
  intro σ supplier s
  exact h σ supplier s

/-- **The rule for two parts of a computation.** Where the first part fails nothing of the second
is asked for, so the types of the second part are then none. -/
theorem AsksThen.bind {f : α → Naming β} (hx : x.AsksThen types ends)
    (hok : ∀ a, ends (.ok a) → (f a).AsksThen more finish)
    (herror : ∀ e, ends (.error e) → more = [] ∧ finish (.error e)) :
    (x >>= f).AsksThen (types ++ more) finish := by
  intro σ supplier s
  obtain ⟨hstore, hends⟩ := hx σ supplier s
  rw [run_bind, Run.bind_apply]
  cases hvalue : (x.run supplier s).value with
  | ok a =>
    rw [hvalue] at hends
    obtain ⟨hstore', hfinish⟩ := hok a hends σ supplier (x.run supplier s).store
    rw [Supplier.storeAfter_append, ← hstore]
    exact ⟨hstore', hfinish⟩
  | error e =>
    -- the second part is not begun, so the store is the one after the first part
    rw [hvalue] at hends
    obtain ⟨rfl, hfinish⟩ := herror e hends
    rw [List.append_nil, ← hstore]
    exact ⟨rfl, hfinish⟩

/-- A first part that always succeeds. -/
theorem AsksThen.bind_ok {f : α → Naming β} (hx : x.AsksThen types fun r => ∃ a, r = .ok a)
    (hok : ∀ a, (f a).AsksThen more finish) : (x >>= f).AsksThen (types ++ more) finish := by
  refine hx.bind (fun a _ => hok a) (fun e h => ?_)
  obtain ⟨a, ha⟩ := h
  cases ha

/-- A first part that always succeeds, and whose value only has to be put into shape. -/
theorem AsksThen.bind_done {f : α → β} (hx : x.AsksThen types fun r => ∃ a, r = .ok a) :
    (x >>= fun a => done (f a)).AsksThen types fun r => ∃ b, r = .ok b := by
  have hdone : ∀ a, (done (f a)).AsksThen [] fun r => ∃ b, r = .ok b :=
    fun a => asksThen_done ⟨f a, rfl⟩
  have h := hx.bind_ok hdone
  rwa [List.append_nil] at h

/-- A first part that always fails. -/
theorem AsksThen.bind_error {f : α → Naming β} {e : NamingError}
    (hx : x.AsksThen types (· = .error e)) : (x >>= f).AsksThen types (· = .error e) := by
  have h : (x >>= f).AsksThen (types ++ []) (· = .error e) := by
    refine hx.bind (fun a ha => ?_) (fun e' he => ⟨rfl, ?_⟩)
    · cases ha
    · rw [Except.error.inj he]
  rwa [List.append_nil] at h

end Naming

/-! ### Fixed names -/

/-- Answers with fixed names and writes down what it is asked for. -/
def recording (names : DeclaredType → String) : Supplier (List DeclaredType) :=
  fun t seen => ⟨names t, seen ++ [t], []⟩

theorem storeAfter_recording (names : DeclaredType → String) (types seen : List DeclaredType) :
    (recording names).storeAfter types seen = seen ++ types := by
  induction types generalizing seen with
  | nil => simp
  | cons t types ih => simp [ih, recording]

namespace Naming

/-- **What a computation asks for under fixed names is what it asks for under every supplier.** -/
theorem asked_eq {x : Naming α} {types : List DeclaredType} (h : x.Asks types)
    (names : DeclaredType → String) : x.asked names = types := by
  -- the run is compared with what is written down at its start, since questions come in between
  have hrun : ∀ seen, (x.run (recording names) seen).store = seen ++ x.asked names := by
    clear h
    induction x with
    | done a => simp [asked]
    | fail e => simp [asked]
    | ask t next ih =>
      intro seen
      rw [run_ask, Run.bind_apply, asked]
      exact (ih (names t) (seen ++ [t])).trans (by simp)
    | note e x ih => exact ih
  have hstore := (h _ (recording names) []).1
  rw [hrun, storeAfter_recording] at hstore
  simpa using hstore

/-- **A run is an evaluation where the answers are fixed names.** The answers need only be so for
the types that are asked for, and only from stores that keep an invariant. -/
theorem run_eq_eval {names : DeclaredType → String} {Inv : σ → Prop} {supplier : Supplier σ}
    {x : Naming α}
    (h : ∀ t ∈ x.asked names, ∀ s, Inv s →
      (supplier t s).value = names t ∧ Inv (supplier t s).store)
    {s : σ} (hs : Inv s) :
    (x.run supplier s).value = x.eval names ∧ Inv (x.run supplier s).store := by
  induction x generalizing s with
  | done a => exact ⟨rfl, hs⟩
  | fail e => exact ⟨rfl, hs⟩
  | ask t next ih =>
    obtain ⟨hvalue, hinv⟩ := h t (by simp [asked]) s hs
    have hrest := ih (names t) (fun u hu => h u (by simp [asked, hu])) hinv
    rw [run_ask, Run.bind_apply, hvalue]
    exact hrest
  | note e x ih => exact ih h hs

/-- Worked out with fixed names, a computation comes to its evaluation. -/
theorem value_run_recording (names : DeclaredType → String) (x : Naming α)
    (seen : List DeclaredType) : (x.run (recording names) seen).value = x.eval names := by
  have hfixed : ∀ t ∈ x.asked names, ∀ seen : List DeclaredType, True →
      (recording names t seen).value = names t ∧ True := fun _ _ _ _ => ⟨rfl, trivial⟩
  exact (run_eq_eval hfixed trivial).1

/-- The same for a computation that is known to ask for certain types. -/
theorem Asks.run_eq_eval {names : DeclaredType → String} {Inv : σ → Prop} {supplier : Supplier σ}
    {x : Naming α} {types : List DeclaredType} (hx : x.Asks types)
    (h : ∀ t ∈ types, ∀ s, Inv s → (supplier t s).value = names t ∧ Inv (supplier t s).store)
    {s : σ} (hs : Inv s) :
    (x.run supplier s).value = x.eval names ∧ Inv (x.run supplier s).store := by
  refine Naming.run_eq_eval (fun t ht => h t ?_) hs
  rwa [asked_eq hx] at ht

end Naming

end BridgeNames
