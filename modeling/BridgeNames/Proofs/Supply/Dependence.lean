import BridgeNames.Proofs.Cache.Consistency
import BridgeNames.Proofs.Naming.Alike

/-!
# What the names of a method depend on

A method is a record of half a dozen fields, and its names are worked out against a supplier that
may keep a store. This file compares two such runs, with different methods and different suppliers,
and says in which cases they cannot come out differently.

Two things are put together for that.

* **The supplier.** A computation that asks for certain types comes to the same under two suppliers
  that give the same answers for these types, in the order in which it asks
  (`BridgeNames.Naming.Asks.run_congr`). What is known of a computation is what it asks for under
  any single supplier, so the two are made into one, which asks both and keeps whether they have
  agreed so far (`BridgeNames.Supplier.beside`).
* **The method.** Each case of the names reads its own fields only
  (`BridgeNames.Method.exposedNames_congr_of_none` and its neighbours).

| case | what the names depend on, besides the selector |
|---|---|
| no selector | the types of the parameters, and the answers for them |
| a constructor, and the selector opens with `initWith` | nothing |
| a constructor and another selector | the type of the first parameter, and the answer for it |
| no constructor, and no parameters | nothing |
| no constructor, but parameters | the method's own name |
-/

namespace BridgeNames

variable {σ τ α : Type}

/-! ### Two suppliers asked at once -/

/-- The stores of two suppliers that are asked for the same types, and whether they have given the
same answers. -/
structure Beside (σ τ : Type) where
  left : σ
  right : τ
  agreed : Bool

namespace Supplier

/-- **Asks two suppliers**, answers as the first one does, and keeps whether the second one
agreed. -/
def beside (f : Supplier σ) (g : Supplier τ) : Supplier (Beside σ τ) := fun t stores =>
  let first := f t stores.left
  let second := g t stores.right
  ⟨first.value, ⟨first.store, second.store, stores.agreed && first.value == second.value⟩,
    first.events⟩

/-- **The suppliers give the same answers to the given questions**, asked one after the other. -/
def AgreesAlong (f : Supplier σ) (g : Supplier τ) : List DeclaredType → σ → τ → Prop
  | [], _, _ => True
  | t :: types, s, s' =>
    (f t s).value = (g t s').value ∧ AgreesAlong f g types (f t s).store (g t s').store

/-- **The suppliers agree on the given types**: whichever of them are asked for, in any order and
any number of times, the answers are the same. -/
def AgreesOn (f : Supplier σ) (g : Supplier τ) (types : List DeclaredType) (s : σ) (s' : τ) :
    Prop := ∀ asked ⊆ types, f.AgreesAlong g asked s s'

variable {f : Supplier σ} {g : Supplier τ} {types : List DeclaredType} {s : σ} {s' : τ}

/-- Having agreed at the end is having agreed at the start and on every question in between. -/
theorem agreed_storeAfter (types : List DeclaredType) (s : σ) (s' : τ) (agreed : Bool) :
    ((f.beside g).storeAfter types ⟨s, s', agreed⟩).agreed = true ↔
      agreed = true ∧ f.AgreesAlong g types s s' := by
  induction types generalizing s s' agreed with
  | nil => simp [AgreesAlong]
  | cons t types ih =>
    rw [storeAfter_cons, beside, ih, Bool.and_eq_true, beq_iff_eq, AgreesAlong, and_assoc]

/-- **Suppliers that answer with the types' own names agree**, whatever either of them keeps. -/
theorem AgreesAlong.of_faithful {f g : Supplier NameCache} {U : Set DeclaredType}
    {Inv Inv' : NameCache → Prop} (hf : f.Faithful U Inv) (hg : g.Faithful U Inv')
    (htypes : ∀ t ∈ types, t ∈ U) {c c' : NameCache} (hc : Inv c) (hc' : Inv' c') :
    f.AgreesAlong g types c c' := by
  induction types generalizing c c' with
  | nil => trivial
  | cons t types ih =>
    obtain ⟨ht, hrest⟩ := List.forall_mem_cons.mp htypes
    obtain ⟨hvalue, hinv⟩ := hf t ht c hc
    obtain ⟨hvalue', hinv'⟩ := hg t ht c' hc'
    exact ⟨hvalue.trans hvalue'.symm, ih hrest hinv hinv'⟩

theorem AgreesOn.of_faithful {f g : Supplier NameCache} {U : Set DeclaredType}
    {Inv Inv' : NameCache → Prop} (hf : f.Faithful U Inv) (hg : g.Faithful U Inv')
    (htypes : ∀ t ∈ types, t ∈ U) {c c' : NameCache} (hc : Inv c) (hc' : Inv' c') :
    f.AgreesOn g types c c' :=
  fun _ hasked => .of_faithful hf hg (fun t ht => htypes t (hasked ht)) hc hc'

end Supplier

namespace Naming

variable {f : Supplier σ} {g : Supplier τ} {s : σ} {s' : τ}

/-- **A run against both suppliers at once tells the two runs**: if they have agreed at its end,
they agreed at its start, and the three runs come to the same. -/
theorem run_beside (x : Naming α) (agreed : Bool)
    (h : (x.run (f.beside g) ⟨s, s', agreed⟩).store.agreed = true) :
    agreed = true ∧ (x.run f s).value = (x.run g s').value := by
  induction x generalizing s s' agreed with
  | done value => exact ⟨h, rfl⟩
  | fail error => exact ⟨h, rfl⟩
  | ask t next ih =>
    -- the next step is the one after the answer of `f`, which is that of `g` if they have agreed
    obtain ⟨hagreed, hrest⟩ := ih (f t s).value _ h
    obtain ⟨hbefore, hanswer⟩ := Bool.and_eq_true_iff.mp hagreed
    refine ⟨hbefore, ?_⟩
    rw [run_ask, run_ask, Run.bind_apply, Run.bind_apply, ← eq_of_beq hanswer]
    exact hrest
  | note event next ih => exact ih agreed h

/-- **A computation comes to the same under suppliers that give the same answers to what it asks
for.** -/
theorem Asks.run_congr {x : Naming α} {types : List DeclaredType} (hx : x.Asks types)
    (h : f.AgreesAlong g types s s') : (x.run f s).value = (x.run g s').value := by
  have hstore := (hx _ (f.beside g) ⟨s, s', true⟩).1
  have hagreed : (x.run (f.beside g) ⟨s, s', true⟩).store.agreed = true := by
    rw [hstore, Supplier.agreed_storeAfter]
    exact ⟨rfl, h⟩
  exact (run_beside x true hagreed).2

end Naming

/-! ### What is read of a method -/

/-- Labels are formed from the types of the parameters. -/
theorem withLabels_congr {parameters parameters' : List Parameter}
    (h : parameters.map Parameter.type = parameters'.map Parameter.type) :
    withLabels parameters = withLabels parameters' := by
  induction parameters generalizing parameters' with
  | nil =>
    obtain rfl : parameters' = [] := List.map_eq_nil_iff.mp h.symm
    rfl
  | cons p rest ih =>
    obtain ⟨p', rest', rfl, hp, hrest⟩ := List.map_eq_cons_iff.mp h.symm
    rw [withLabels, withLabels, ih hrest.symm, hp]

namespace Method

/-- The types of the parameters, in order. -/
def parameterTypes (m : Method) : List TypeUse := m.parameters.map Parameter.type

variable {m m' : Method} {selector : String}

theorem length_parameters_congr (h : m.parameterTypes = m'.parameterTypes) :
    m.parameters.length = m'.parameters.length := by
  rw [← m.parameters.length_map Parameter.type, ← m'.parameters.length_map Parameter.type]
  exact congrArg List.length h

theorem parameters_eq_nil_congr (h : m.parameterTypes = m'.parameterTypes) :
    m.parameters = [] ↔ m'.parameters = [] := by
  rw [← List.length_eq_zero_iff, length_parameters_congr h, List.length_eq_zero_iff]

theorem derivedLabels_congr (hc : m.isConstructor = m'.isConstructor)
    (h : m.parameterTypes = m'.parameterTypes) : m.derivedLabels = m'.derivedLabels := by
  rw [derivedLabels, derivedLabels, hc]
  cases m'.isConstructor with
  | false => exact withLabels_congr h
  | true =>
    cases hm : m.parameters with
    | nil =>
      rw [(parameters_eq_nil_congr h).mp hm]
    | cons p rest =>
      rw [parameterTypes, hm] at h
      obtain ⟨p', rest', hm', hp, hrest⟩ := List.map_eq_cons_iff.mp h.symm
      rw [hm']
      simp only [hp, withLabels_congr hrest]

/-- The first type is all that a constructor takes from its parameters under a selector. -/
theorem openingLabel_congr (h : m.parameterTypes.head? = m'.parameterTypes.head?) :
    m.openingLabel selector = m'.openingLabel selector := by
  rw [parameterTypes, parameterTypes, List.head?_map, List.head?_map] at h
  rw [openingLabel, openingLabel]
  cases hm : m.parameters with
  | nil =>
    rw [hm] at h
    obtain hm' : m'.parameters = [] := by simpa using h.symm
    rw [hm']
  | cons p rest =>
    rw [hm] at h
    obtain ⟨p', hhead, hp⟩ := Option.map_eq_some_iff.mp h.symm
    obtain ⟨rest', hm'⟩ := List.head?_eq_some_iff.mp hhead
    rw [hm']
    exact congrArg TypeUse.label hp.symm

/-! ### Each case reads its own fields -/

section Cases

theorem exposedNames_congr_of_none (h : m.selector = none) (h' : m'.selector = none)
    (hc : m.isConstructor = m'.isConstructor) (htypes : m.parameterTypes = m'.parameterTypes) :
    m.exposedNames = m'.exposedNames := by
  rw [exposedNames_of_none h, exposedNames_of_none h', derivedLabels_congr hc htypes]

variable (h : m.selector = some selector) (h' : m'.selector = some selector)
include h h'

theorem exposedNames_congr_of_initWith (hc : m.isConstructor = true)
    (hc' : m'.isConstructor = true)
    (hopen : "initWith".toList <+: (selectorSegments selector).first) :
    m.exposedNames = m'.exposedNames := by
  obtain ⟨rest, hrest⟩ := hopen
  rw [exposedNames_of_initWith h hc hrest.symm, exposedNames_of_initWith h' hc' hrest.symm]

theorem exposedNames_congr_of_constructor (hc : m.isConstructor = true)
    (hc' : m'.isConstructor = true)
    (hopen : ¬"initWith".toList <+: (selectorSegments selector).first)
    (hfirst : m.parameterTypes.head? = m'.parameterTypes.head?) :
    m.exposedNames = m'.exposedNames := by
  rw [exposedNames_of_constructor h hc hopen, exposedNames_of_constructor h' hc' hopen,
    openingLabel_congr hfirst]

theorem exposedNames_congr_of_nil (hc : m.isConstructor = false) (hc' : m'.isConstructor = false)
    (hp : m.parameters = []) (hp' : m'.parameters = []) : m.exposedNames = m'.exposedNames := by
  rw [exposedNames_of_nil h hc hp, exposedNames_of_nil h' hc' hp']

theorem exposedNames_congr_of_parameters (hc : m.isConstructor = false)
    (hc' : m'.isConstructor = false) (hp : m.parameters ≠ []) (hp' : m'.parameters ≠ [])
    (hname : m.name = m'.name) : m.exposedNames = m'.exposedNames := by
  rw [exposedNames_of_parameters h hc hp, exposedNames_of_parameters h' hc' hp',
    selectedNames_congr hname]

end Cases

/-! ### From the names to the answer -/

variable {f : Supplier σ} {g : Supplier τ} {s : σ} {s' : τ}

/-- **Methods whose names are formed alike get the same answer**, from suppliers that agree along
what one of them asks for. -/
theorem value_names_congr (hm : m.isExposed = true) (hm' : m'.isExposed = true)
    (hsame : m.exposedNames = m'.exposedNames) (h : f.AgreesAlong g m.wanted s s') :
    (m.names.run f s).value = (m'.names.run g s').value :=
  calc (m.names.run f s).value = (m.names.run g s').value := m.names_asks.run_congr h
    _ = (m'.names.run g s').value := by rw [value_names hm, value_names hm', hsame]

/-- The same where nothing is asked for: then the suppliers have no part in it. -/
theorem value_names_congr_of_wanted (hm : m.isExposed = true) (hm' : m'.isExposed = true)
    (hsame : m.exposedNames = m'.exposedNames) (h : m.wanted = []) :
    (m.names.run f s).value = (m'.names.run g s').value :=
  value_names_congr hm hm' hsame (h ▸ trivial)

/-- A constructor whose selector does not open with `initWith` asks for what its first parameter
mentions, or for nothing. -/
theorem agreesAlong_wanted_of_first (hm : m.isExposed = true) (h : m.selector = some selector)
    (hc : m.isConstructor = true)
    (hopen : ¬"initWith".toList <+: (selectorSegments selector).first)
    (hfirst : ∀ u, m.parameterTypes.head? = some u → f.AgreesOn g u.types s s') :
    f.AgreesAlong g m.wanted s s' := by
  rw [wanted_of_constructor hm h hc hopen]
  rw [parameterTypes, List.head?_map] at hfirst
  cases hp : m.parameters with
  | nil => trivial
  | cons p rest =>
    have hagree := hfirst p.type (by rw [hp]; rfl)
    have htake : ((p :: rest).take 1).flatMap (fun q => q.type.wanted true) = p.type.wanted true :=
      List.append_nil _
    rw [htake]
    exact hagree _ (p.type.wanted_subset true)

/-- **Without regard to suppliers**, methods of one name with parameters of the same types are named
by the same computation. The names of the parameters are not read, and the visibility only for
whether the method is exposed. -/
theorem names_congr (hm : m.isExposed = true) (hm' : m'.isExposed = true)
    (hc : m.isConstructor = m'.isConstructor) (hsel : m.selector = m'.selector)
    (hname : m.name = m'.name) (htypes : m.parameterTypes = m'.parameterTypes) :
    m.names = m'.names := by
  have hsame : m.exposedNames = m'.exposedNames := by
    have hnil := parameters_eq_nil_congr htypes
    rw [exposedNames, exposedNames, derivedLabels_congr hc htypes, hsel, hc]
    cases m'.selector with
    | none => rfl
    | some selector =>
      simp only [constructorNames, openingLabel_congr (congrArg List.head? htypes),
        selectedNames_congr hname, hnil]
  rw [names_of_exposed hm, names_of_exposed hm', hsame, hname, hsel]
  refine congrArg (m'.exposedNames >>= ·) (funext fun names => ?_)
  rw [MethodNames.fits, MethodNames.fits, length_parameters_congr htypes]

/-! ### What the answer depends on -/

/-- **What the names of a method depend on.** Two exposed methods that are both constructors or
neither, and have the same selector or both have none, get the same answer, be it names or an error,
in each of these cases, whatever the suppliers keep and in whatever else they differ:
* they are no constructors, have one name, and both take parameters;
* they are no constructors, and neither takes any;
* they are constructors, and the selector opens with `initWith`;
* they are constructors, the selector opens otherwise, their first parameters are of one type, or
  both have none, and the suppliers agree on that type;
* no selector is given, the parameters are of the same types, and the suppliers agree on these.

The names of parameters and the difference between public and protected never matter: methods that
differ in nothing else are named by one computation, down to the events that are noted. -/
theorem names_depend_on (hm : m.isExposed = true) (hm' : m'.isExposed = true)
    (hc : m.isConstructor = m'.isConstructor) (hsel : m.selector = m'.selector)
    (f : Supplier σ) (g : Supplier τ) (s : σ) (s' : τ) :
    let answer := (m.names.run f s).value
    let answer' := (m'.names.run g s').value
    (∀ selector, m.selector = some selector →
      (m.isConstructor = false →
        (m.name = m'.name → m.parameters ≠ [] → m'.parameters ≠ [] → answer = answer') ∧
        (m.parameters = [] → m'.parameters = [] → answer = answer')) ∧
      (m.isConstructor = true →
        ("initWith".toList <+: selector.toList.takeWhile (· ≠ ':') → answer = answer') ∧
        (¬"initWith".toList <+: selector.toList.takeWhile (· ≠ ':') →
          m.parameterTypes.head? = m'.parameterTypes.head? →
          (∀ u, m.parameterTypes.head? = some u → f.AgreesOn g u.types s s') →
          answer = answer'))) ∧
    (m.selector = none → m.parameterTypes = m'.parameterTypes → f.AgreesOn g m.types s s' →
      answer = answer') ∧
    (m.name = m'.name → m.parameterTypes = m'.parameterTypes → m.names = m'.names) := by
  intro answer answer'
  refine ⟨fun selector h => ⟨fun hplain => ?_, fun hcons => ?_⟩, fun hnone htypes hagree => ?_,
    names_congr hm hm' hc hsel⟩
  · -- no constructor: no type is asked for
    have h' : m'.selector = some selector := hsel.symm.trans h
    have hplain' : m'.isConstructor = false := hc.symm.trans hplain
    have hwanted : m.wanted = [] := wanted_of_selector hm h fun hcons => by
      rw [hplain] at hcons
      cases hcons
    exact ⟨fun hname hp hp' => value_names_congr_of_wanted hm hm'
        (exposedNames_congr_of_parameters h h' hplain hplain' hp hp' hname) hwanted,
      fun hp hp' => value_names_congr_of_wanted hm hm'
        (exposedNames_congr_of_nil h h' hplain hplain' hp hp') hwanted⟩
  · have h' : m'.selector = some selector := hsel.symm.trans h
    have hcons' : m'.isConstructor = true := hc.symm.trans hcons
    rw [← first_selectorSegments]
    refine ⟨fun hopen => ?_, fun hopen hfirst hagree => ?_⟩
    · exact value_names_congr_of_wanted hm hm'
        (exposedNames_congr_of_initWith h h' hcons hcons' hopen)
        (wanted_of_selector hm h fun _ => hopen)
    · exact value_names_congr hm hm'
        (exposedNames_congr_of_constructor h h' hcons hcons' hopen hfirst)
        (agreesAlong_wanted_of_first hm h hcons hopen hagree)
  · have hnone' : m'.selector = none := hsel.symm.trans hnone
    exact value_names_congr hm hm' (exposedNames_congr_of_none hnone hnone' hc htypes)
      (hagree m.wanted m.wanted_subset)

/-- **Five pairs of methods**, one for each case. The methods of a pair differ in all that the case
leaves open; where nothing is said of the suppliers, one reads an empty table and one works names
out, and where they have to agree on a type, one keeps names and one does not. -/
theorem names_depend_on_each_case :
    let key : TypeUse := .declared (.ofNames "a.Key" "Key")
    let int : TypeUse := .primitive .int
    let take : Method := {
      name := "take", parameters := [⟨"key", key⟩], selector := some "takeKey:" }
    let takeAll : Method := {
      name := "take", parameters := [⟨"n", int⟩, ⟨"m", int⟩], selector := some "takeKey:"
      visibility := .protectedAccess }
    let size : Method := { name := "size", selector := some "count" }
    let length : Method := { name := "length", selector := some "count" }
    let initWith : Method := { Method.constructor with
      parameters := [⟨"key", key⟩], selector := some "initWithKey:" }
    let initBare : Method := { Method.constructor with selector := some "initWithKey:" }
    let make : Method := { Method.constructor with
      parameters := [⟨"key", key⟩, ⟨"n", int⟩], selector := some "make:n:" }
    let makeOne : Method := { Method.constructor with
      parameters := [⟨"k", key⟩], selector := some "make:n:", visibility := .protectedAccess }
    let put : Method := { name := "put", parameters := [⟨"key", key⟩, ⟨"n", int⟩] }
    let add : Method := { name := "add", parameters := [⟨"k", key⟩, ⟨"i", int⟩] }
    let fresh := NameCache.empty
    (take.names.run (tabled []) ()).value = (takeAll.names.run direct ()).value ∧
    (size.names.run (tabled []) ()).value = (length.names.run direct ()).value ∧
    (initWith.names.run (tabled []) ()).value = (initBare.names.run direct ()).value ∧
    (make.names.run cached fresh).value = (makeOne.names.run direct fresh).value ∧
    (put.names.run cached fresh).value = (add.names.run direct fresh).value := by
  intro key int take takeAll size length initWith initBare make makeOne put add fresh
  -- the one declared type is consistent with itself, so the cache does not show
  have hclosed : ClosedOutwards {DeclaredType.ofNames "a.Key" "Key"} := by
    rintro t rfl e he
    cases he
  have hconsistent : Consistent {DeclaredType.ofNames "a.Key" "Key"} := by
    rintro t rfl u rfl -
    rfl
  have hagree : ∀ types ⊆ [DeclaredType.ofNames "a.Key" "Key"],
      cached.AgreesOn direct types fresh fresh := fun types htypes =>
    .of_faithful (cached_faithful hclosed hconsistent) (direct_faithful _)
      (fun t ht => List.mem_singleton.mp (htypes ht)) (NameCache.agreesOn_empty _) trivial
  refine ⟨?_, ?_, ?_, ?_, ?_⟩
  · have h := names_depend_on (show take.isExposed = true from rfl)
      (show takeAll.isExposed = true from rfl) rfl rfl (tabled []) direct () ()
    exact ((h.1 _ rfl).1 rfl).1 rfl (List.cons_ne_nil _ _) (List.cons_ne_nil _ _)
  · have h := names_depend_on (show size.isExposed = true from rfl)
      (show length.isExposed = true from rfl) rfl rfl (tabled []) direct () ()
    exact ((h.1 _ rfl).1 rfl).2 rfl rfl
  · have h := names_depend_on (show initWith.isExposed = true from rfl)
      (show initBare.isExposed = true from rfl) rfl rfl (tabled []) direct () ()
    exact ((h.1 _ rfl).2 rfl).1 (by decide)
  · have h := names_depend_on (show make.isExposed = true from rfl)
      (show makeOne.isExposed = true from rfl) rfl rfl cached direct fresh fresh
    refine ((h.1 _ rfl).2 rfl).2 (by decide) rfl fun u hu => hagree _ ?_
    obtain rfl : key = u := Option.some.inj hu
    exact List.Subset.refl _
  · have h := names_depend_on (show put.isExposed = true from rfl)
      (show add.isExposed = true from rfl) rfl rfl cached direct fresh fresh
    exact h.2.1 rfl rfl (hagree _ (List.Subset.refl _))

end Method

end BridgeNames
