import BridgeNames.Supply.Basic

/-!
# What one look-up does to the cache

A look-up walks outwards along the levels of a type until one of three things happens, and then
comes back and keeps a name for each level it left behind:

* the level is **found**: its name is in the cache, which stays as it is;
* the level is **settled** (`BridgeNames.DeclaredType.IsSettled`): its name is fixed, or there is
  nothing around it, so it is its own name whatever the cache holds;
* otherwise the level is named **inside** the answer for the type around it.

`BridgeNames.cached_induction` says that there is nothing else to a look-up, and it is the only
proof here that opens the supplier. In the last case the cache may have been given the very name
that is looked for, by a level further out with the same binary name. The name kept first is the
one that counts, and it is the answer too: that the answer is always the name that the cache holds
afterwards (`BridgeNames.find?_cached`) needs no assumption on binary names, and neither does that
a kept name stays (`BridgeNames.find?_cached_of_some`).

What is logged is said by the same three cases: nothing where a name is found, and otherwise one
event for the level, after those for the levels around it.
-/

namespace BridgeNames

variable {σ : Type}

/-! ### One level -/

/-- The name does not depend on what is around the type. -/
def DeclaredType.IsSettled (t : DeclaredType) : Prop :=
  t.declaration.fixedName? ≠ none ∨ t.enclosing? = none

/-- A settled type is worked out to its own name, and no supplier is asked. -/
theorem Supplier.compute_of_isSettled (supplier : Supplier σ) {t : DeclaredType}
    (h : t.IsSettled) (s : σ) :
    (supplier.compute t s).value = t.name ∧ (supplier.compute t s).store = s := by
  rcases t with d | ⟨d, e⟩
  · cases hfixed : d.fixedName? <;>
      simp [Supplier.compute, Declaration.resolve, DeclaredType.declaration,
        DeclaredType.enclosing?, DeclaredType.name, hfixed]
  · rcases h with hne | hnone
    · obtain ⟨name, hfixed⟩ := Option.ne_none_iff_exists'.mp hne
      simp only [DeclaredType.declaration] at hfixed
      simp [Supplier.compute, Declaration.resolve, DeclaredType.declaration, DeclaredType.name,
        hfixed]
    · cases hnone

/-- The name of any other type is formed from the name of the type around it. -/
theorem DeclaredType.name_nested {d : Declaration} (h : d.fixedName? = none) (e : DeclaredType) :
    (DeclaredType.nested d e).name = d.nameInside e.name := by
  rw [DeclaredType.name, h]
  rfl

/-- Any other type is worked out from the answer for the type around it. -/
theorem Supplier.compute_nested (supplier : Supplier σ) {d : Declaration} (h : d.fixedName? = none)
    (e : DeclaredType) (s : σ) :
    (supplier.compute (.nested d e) s).value = d.nameInside (supplier e s).value ∧
      (supplier.compute (.nested d e) s).store = (supplier e s).store := by
  simp [Supplier.compute, Declaration.resolve, DeclaredType.declaration, DeclaredType.enclosing?, h]

/-- A type that is worked out is logged with the name that was worked out, and a settled type with
nothing else. -/
theorem Supplier.events_compute_of_isSettled (supplier : Supplier σ) {t : DeclaredType}
    (h : t.IsSettled) (s : σ) :
    (supplier.compute t s).events = [.typeResolved t.binaryName t.name] := by
  rcases t with d | ⟨d, e⟩
  · cases hfixed : d.fixedName? <;>
      simp [Supplier.compute, Declaration.resolve, DeclaredType.declaration, DeclaredType.binaryName,
        DeclaredType.enclosing?, DeclaredType.name, hfixed]
  · rcases h with hne | hnone
    · obtain ⟨name, hfixed⟩ := Option.ne_none_iff_exists'.mp hne
      simp only [DeclaredType.declaration] at hfixed
      simp [Supplier.compute, Declaration.resolve, DeclaredType.declaration,
        DeclaredType.binaryName, DeclaredType.name, hfixed]
    · cases hnone

/-- Any other type is logged after whatever the supplier logs for the type around it. -/
theorem Supplier.events_compute_nested (supplier : Supplier σ) {d : Declaration}
    (h : d.fixedName? = none) (e : DeclaredType) (s : σ) :
    (supplier.compute (.nested d e) s).events =
      (supplier e s).events ++ [.typeResolved d.binaryName (d.nameInside (supplier e s).value)] := by
  simp [Supplier.compute, Declaration.resolve, DeclaredType.declaration, DeclaredType.enclosing?, h]

theorem DeclaredType.binaryName_mem_chain (t : DeclaredType) :
    t.binaryName ∈ t.chain.map Declaration.binaryName := by
  cases t <;> exact List.mem_cons_self

/-- A type that is not settled is nested, and its level has no fixed name. -/
theorem DeclaredType.exists_of_not_isSettled {t : DeclaredType} (h : ¬t.IsSettled) :
    ∃ d e, t = .nested d e ∧ d.fixedName? = none := by
  rcases t with d | ⟨d, e⟩
  · exact absurd (Or.inr rfl) h
  · refine ⟨d, e, rfl, ?_⟩
    cases hfixed : d.fixedName? with
    | none => rfl
    | some name => exact absurd (Or.inl (by simp [DeclaredType.declaration, hfixed])) h

/-- **The two ways in which a walk outwards goes at a level**, as a rule of induction: it ends
there, or it goes on around it. -/
theorem DeclaredType.walk_induction {motive : DeclaredType → Prop}
    (settled : ∀ t : DeclaredType, t.IsSettled → motive t)
    (inside : ∀ d e, d.fixedName? = none → motive e → motive (.nested d e)) (t : DeclaredType) :
    motive t := by
  induction t with
  | topLevel d => exact settled _ (Or.inr rfl)
  | nested d e ih =>
    by_cases hfixed : d.fixedName? = none
    · exact inside d e hfixed ih
    · exact settled _ (Or.inl hfixed)

/-! ### Keeping a name -/

namespace NameCache

variable {c : NameCache} {key name kept : String}

theorem find?_keep_of_none (h : c.find? key = none) (name : String) :
    (c.keep key name).find? key = some name := by
  rw [find?_keep_self, h]
  rfl

/-- A kept name stays when another name is kept, under the same key as well. -/
theorem find?_keep_of_some (h : c.find? key = some kept) (key' name : String) :
    (c.keep key' name).find? key = some kept := by
  by_cases hkey : key = key'
  · subst hkey
    rw [find?_keep_self, h]
    rfl
  · rw [find?_keep_of_ne c hkey, h]

end NameCache

/-! ### A whole look-up -/

theorem cached_apply (t : DeclaredType) (c : NameCache) :
    cached t c = NameCache.lookUpOr t.declaration (cached.compute t) c :=
  congrFun (supplyVia_eq NameCache.lookUpOr t) c

/-- The answer to a look-up that finds nothing, and the cache afterwards. -/
theorem cached_of_find?_eq_none {t : DeclaredType} {c : NameCache}
    (h : c.find? t.binaryName = none) :
    (cached t c).value =
        ((cached.compute t c).store.find? t.binaryName).getD (cached.compute t c).value ∧
      (cached t c).store = (cached.compute t c).store.keep t.binaryName (cached.compute t c).value := by
  have hkey : c.find? t.declaration.binaryName = none := h
  rw [cached_apply, NameCache.lookUpOr, hkey]
  exact ⟨rfl, rfl⟩

theorem cached_of_find?_eq_some {t : DeclaredType} {c : NameCache} {name : String}
    (h : c.find? t.binaryName = some name) :
    (cached t c).value = name ∧ (cached t c).store = c := by
  have hkey : c.find? t.declaration.binaryName = some name := h
  rw [cached_apply, NameCache.lookUpOr, hkey]
  exact ⟨rfl, rfl⟩

/-- What a look-up logs that finds nothing. -/
theorem events_cached_of_find?_eq_none {t : DeclaredType} {c : NameCache}
    (h : c.find? t.binaryName = none) : (cached t c).events = (cached.compute t c).events := by
  have hkey : c.find? t.declaration.binaryName = none := h
  rw [cached_apply, NameCache.lookUpOr, hkey]

/-- A look-up that finds its name logs nothing. -/
theorem events_cached_of_find?_eq_some {t : DeclaredType} {c : NameCache} {name : String}
    (h : c.find? t.binaryName = some name) : (cached t c).events = [] := by
  have hkey : c.find? t.declaration.binaryName = some name := h
  rw [cached_apply, NameCache.lookUpOr, hkey]

/-- **The three ways in which a look-up goes**, as a rule for proving something of its answer and
of the cache afterwards. -/
theorem cached_induction {motive : DeclaredType → NameCache → String → NameCache → Prop}
    (found : ∀ t c name, c.find? t.binaryName = some name → motive t c name c)
    (settled : ∀ t c, c.find? t.binaryName = none → t.IsSettled →
      motive t c t.name (c.keep t.binaryName t.name))
    (inside : ∀ d e c name c', d.fixedName? = none → c.find? d.binaryName = none →
      motive e c name c' →
      motive (.nested d e) c ((c'.find? d.binaryName).getD (d.nameInside name))
        (c'.keep d.binaryName (d.nameInside name)))
    (t : DeclaredType) (c : NameCache) : motive t c (cached t c).value (cached t c).store := by
  -- the walk outwards is the recursion of the type; a found or settled level ends it early
  induction t with
  | topLevel d =>
    cases hfind : c.find? (DeclaredType.topLevel d).binaryName with
    | some name =>
      obtain ⟨hvalue, hstore⟩ := cached_of_find?_eq_some hfind
      rw [hvalue, hstore]
      exact found _ c name hfind
    | none =>
      have hsettled : (DeclaredType.topLevel d).IsSettled := Or.inr rfl
      obtain ⟨hvalue, hstore⟩ := cached_of_find?_eq_none hfind
      obtain ⟨hname, hsame⟩ := cached.compute_of_isSettled hsettled c
      rw [hvalue, hstore, hname, hsame, hfind]
      exact settled _ c hfind hsettled
  | nested d e ih =>
    cases hfind : c.find? (DeclaredType.nested d e).binaryName with
    | some name =>
      obtain ⟨hvalue, hstore⟩ := cached_of_find?_eq_some hfind
      rw [hvalue, hstore]
      exact found _ c name hfind
    | none =>
      obtain ⟨hvalue, hstore⟩ := cached_of_find?_eq_none hfind
      rcases Classical.em (DeclaredType.nested d e).IsSettled with hsettled | hopen
      · obtain ⟨hname, hsame⟩ := cached.compute_of_isSettled hsettled c
        rw [hvalue, hstore, hname, hsame, hfind]
        exact settled _ c hfind hsettled
      · obtain ⟨d, e, ⟨⟩, hfixed⟩ := DeclaredType.exists_of_not_isSettled hopen
        obtain ⟨hname, hafter⟩ := cached.compute_nested hfixed e c
        rw [hvalue, hstore, hname, hafter]
        exact inside d e c _ _ hfixed hfind ih

/-- **The answer is the name that the cache holds afterwards**, also where binary names do not
identify types. -/
theorem find?_cached (t : DeclaredType) (c : NameCache) :
    (cached t c).store.find? t.binaryName = some (cached t c).value := by
  refine cached_induction (motive := fun t _ name c' => c'.find? t.binaryName = some name)
    ?_ ?_ ?_ t c
  · intro t c name hfind
    exact hfind
  · intro t c hfind _
    exact NameCache.find?_keep_of_none hfind t.name
  · intro d e c name c' _ _ _
    exact NameCache.find?_keep_self c' d.binaryName (d.nameInside name)

/-- **Types with one binary name have one place in the cache**: after a look-up of the one, a look-up
of the other has the same answer, changes nothing and logs nothing. -/
theorem cached_after_cached {t u : DeclaredType} (h : t.binaryName = u.binaryName) (c : NameCache) :
    cached u (cached t c).store = ⟨(cached t c).value, (cached t c).store, []⟩ := by
  have hfind : (cached t c).store.find? u.binaryName = some (cached t c).value :=
    h ▸ find?_cached t c
  have hkey : (cached t c).store.find? u.declaration.binaryName = some (cached t c).value := hfind
  rw [cached_apply u, NameCache.lookUpOr, hkey]

/-- A look-up leaves all binary names alone that are not those of its levels. -/
theorem find?_cached_of_notMem {t : DeclaredType} {key : String}
    (h : key ∉ t.chain.map Declaration.binaryName) (c : NameCache) :
    (cached t c).store.find? key = c.find? key := by
  revert h
  refine cached_induction (motive := fun t c _ c' =>
    key ∉ t.chain.map Declaration.binaryName → c'.find? key = c.find? key) ?_ ?_ ?_ t c
  · intro t c name _ _
    rfl
  · intro t c _ _ hkey
    have hne : key ≠ t.binaryName := by
      rintro rfl
      exact hkey t.binaryName_mem_chain
    exact NameCache.find?_keep_of_ne c hne t.name
  · intro d e c name c' _ _ ih hkey
    obtain ⟨hne, hrest⟩ : key ≠ d.binaryName ∧ key ∉ e.chain.map Declaration.binaryName := by
      simpa [DeclaredType.chain] using hkey
    rw [NameCache.find?_keep_of_ne c' hne, ih hrest]

/-- **A kept name stays** through every look-up. -/
theorem find?_cached_of_some {c : NameCache} {key kept : String} (h : c.find? key = some kept)
    (t : DeclaredType) : (cached t c).store.find? key = some kept := by
  revert h
  refine cached_induction
    (motive := fun _ c _ c' => c.find? key = some kept → c'.find? key = some kept) ?_ ?_ ?_ t c
  · intro t c name _ hkept
    exact hkept
  · intro t c _ _ hkept
    exact NameCache.find?_keep_of_some hkept _ _
  · intro d e c name c' _ _ ih hkept
    exact NameCache.find?_keep_of_some (ih hkept) _ _

end BridgeNames
