import BridgeNames.Proofs.Cache.OrderFree
import BridgeNames.Proofs.Cache.Stability
import BridgeNames.Proofs.Naming.Noted
import BridgeNames.Proofs.Naming.TypeLevels

/-!
# One event for one kept name

A namer that keeps names logs a **resolution** for every type whose name it works out: the binary
name of the type and the name. The log and the cache are filled in different places, the one while a
name is worked out and the other after that, but they tell the same: **the resolutions in the log
are the entries of the cache, in the order in which they were put in**
(`BridgeNames.FilledBy.entries`).

A session fills the cache by single steps, and the steps are all there is to know
(`BridgeNames.FilledBy`). A step puts one name in, under a binary name that has none so far. The name
is the type's own, or it is formed from the name that is kept already for the type around it, so the
step that put that one in came before (`BridgeNames.FilledBy.exists_earlier`). Which types the steps
are about can be told in advance: a look-up walks outwards up to a known type or to a settled one, and
the types that it leaves behind are worked out on the way back (`BridgeNames.DeclaredType.workedOut`).

One thing has to be assumed, that no type has the binary name of a type around it
(`BridgeNames.DeclaredType.LevelsDiffer`). Otherwise the type around it takes the place in the cache
while the name is worked out, and there are two events for one entry. Types that are not around each
other may share a binary name: the second of them is found in the cache and not worked out at all.
-/

namespace BridgeNames

/-! ### Resolutions in a log -/

/-- What an event tells of a resolved type: its binary name and its name. -/
def Event.resolution? : Event → Option (String × String)
  | typeResolved binaryName name => some (binaryName, name)
  | _ => none

/-- The events that tell of a resolved type are those with this record. -/
theorem Event.resolution?_eq_some_iff {event : Event} {key name : String} :
    event.resolution? = some (key, name) ↔
      event.record = ⟨.trace, typeNamesTarget, "resolved type name",
        [("symbol", .text key), ("name", .text name)]⟩ := by
  cases event <;> simp [resolution?, record]

/-- **The resolutions in a log**, each a binary name and a name. -/
def resolutions (events : List Event) : List (String × String) :=
  events.filterMap Event.resolution?

@[simp] theorem resolutions_nil : resolutions [] = [] := rfl

@[simp] theorem resolutions_append (events more : List Event) :
    resolutions (events ++ more) = resolutions events ++ resolutions more :=
  List.filterMap_append

@[simp] theorem resolutions_typeResolved (key name : String) :
    resolutions [.typeResolved key name] = [(key, name)] := rfl

/-! ### Entries of a cache -/

namespace NameCache

variable {c : NameCache} {key name : String}

/-- The name that is kept for a binary name is the one entry under it. -/
theorem find?_eq_some_iff : c.find? key = some name ↔ (key, name) ∈ c.entries := by
  have hlookup : ∀ entries : List (String × String), (entries.map Prod.fst).Nodup →
      (entries.lookup key = some name ↔ (key, name) ∈ entries) := by
    intro entries hnodup
    induction entries with
    | nil => simp
    | cons entry rest ih =>
      obtain ⟨key', name'⟩ := entry
      obtain ⟨hfirst, hrest⟩ := List.nodup_cons.mp hnodup
      by_cases hkey : key = key'
      · -- no later entry has this binary name
        subst hkey
        have hlater : (key, name) ∉ rest := fun hm => hfirst (List.mem_map.mpr ⟨_, hm, rfl⟩)
        simp [hlater, eq_comm]
      · rw [List.lookup_cons, beq_eq_false_iff_ne.mpr hkey, List.mem_cons, Prod.mk.injEq]
        exact (ih hrest).trans ⟨Or.inr, fun h => h.resolve_left fun heq => hkey heq.1⟩
  exact hlookup c.entries c.nodup

theorem entries_keep_of_none (h : c.find? key = none) (name : String) :
    (c.keep key name).entries = (key, name) :: c.entries := by
  rw [keep, dif_neg (find?_eq_none_iff.mp h)]

end NameCache

/-! ### Filling a cache step by step -/

/-- One of the steps that end with a last one is that last one, or stands among the others. -/
theorem eq_or_exists_of_append_cons_eq {α : Type} {front back steps : List α} {step last : α}
    (h : front ++ step :: back = steps ++ [last]) :
    front = steps ∧ step = last ∨ ∃ back', front ++ step :: back' = steps := by
  rcases List.eq_nil_or_concat' back with rfl | ⟨back', later, rfl⟩
  · obtain ⟨hfront, hstep⟩ := List.append_inj' h rfl
    exact Or.inl ⟨hfront, List.singleton_inj.mp hstep⟩
  · rw [← List.cons_append, ← List.append_assoc] at h
    exact Or.inr ⟨back', (List.append_inj' h rfl).1⟩

/-- What the event of a step tells. -/
def told (step : DeclaredType × String) : String × String := (step.1.binaryName, step.2)

/-- **The second cache is filled from the first by steps**, each of which puts the name of one type
in, under a binary name that has none so far. -/
inductive FilledBy (c : NameCache) : List (DeclaredType × String) → NameCache → Prop where
  /-- No step has been made. -/
  | none : FilledBy c [] c
  /-- A type whose name does not depend on what is around it goes in with its own name. -/
  | settled {steps : List (DeclaredType × String)} {c' : NameCache} {t : DeclaredType}
      (h : FilledBy c steps c') (hnew : c'.find? t.binaryName = .none) (ht : t.IsSettled) :
      FilledBy c (steps ++ [(t, t.name)]) (c'.keep t.binaryName t.name)
  /-- Any other type goes in with the name that is formed from the one kept for the type around
  it. -/
  | inside {steps : List (DeclaredType × String)} {c' : NameCache} {d : Declaration}
      {e : DeclaredType} {outer : String} (h : FilledBy c steps c')
      (hnew : c'.find? d.binaryName = .none) (hfixed : d.fixedName? = .none)
      (houter : c'.find? e.binaryName = some outer) :
      FilledBy c (steps ++ [(.nested d e, d.nameInside outer)])
        (c'.keep d.binaryName (d.nameInside outer))

namespace FilledBy

variable {c c' c'' : NameCache} {steps more : List (DeclaredType × String)}

theorem trans (h : FilledBy c steps c') (h' : FilledBy c' more c'') :
    FilledBy c (steps ++ more) c'' := by
  induction h' with
  | none => rwa [List.append_nil]
  | settled _ hnew ht ih =>
    rw [← List.append_assoc]
    exact ih.settled hnew ht
  | inside _ hnew hfixed houter ih =>
    rw [← List.append_assoc]
    exact ih.inside hnew hfixed houter

/-- **The entries are what the steps tell**, the newest first, before those that were there
already. -/
theorem entries (h : FilledBy c steps c') :
    c'.entries = (steps.map told).reverse ++ c.entries := by
  induction h with
  | none => rfl
  | settled _ hnew _ ih =>
    rw [NameCache.entries_keep_of_none hnew, ih]
    simp [told]
  | inside _ hnew _ _ ih =>
    rw [NameCache.entries_keep_of_none hnew, ih]
    simp [told, DeclaredType.binaryName, DeclaredType.declaration]

/-- **A name that is formed from another comes after it**: the name of the type around was told by an
earlier step, or was there from the beginning. -/
theorem exists_earlier {front back : List (DeclaredType × String)} {d : Declaration}
    {e : DeclaredType} {name : String} (h : FilledBy c (front ++ (.nested d e, name) :: back) c')
    (hfixed : d.fixedName? = .none) :
    ∃ outer, name = d.nameInside outer ∧
      ((e.binaryName, outer) ∈ front.map told ∨ (e.binaryName, outer) ∈ c.entries) := by
  generalize hsteps : front ++ (.nested d e, name) :: back = steps at h
  induction h generalizing back with
  | none => simp at hsteps
  | @settled steps c' t h hnew ht ih =>
    rcases eq_or_exists_of_append_cons_eq hsteps with ⟨rfl, hstep⟩ | ⟨back', hfront⟩
    · -- a type inside another whose name is not fixed is not settled
      obtain ⟨rfl, -⟩ := Prod.mk.inj hstep
      rcases ht with hne | hnone
      · exact absurd hfixed hne
      · cases hnone
    · exact ih hfront
  | @inside steps c' d' e' outer h hnew hfixed' houter ih =>
    rcases eq_or_exists_of_append_cons_eq hsteps with ⟨rfl, hstep⟩ | ⟨back', hfront⟩
    · obtain ⟨⟨⟩, rfl⟩ := Prod.mk.inj hstep
      -- the name of the type around is an entry, and so it was told or was there
      have hentry := NameCache.find?_eq_some_iff.mp houter
      rw [h.entries, List.mem_append, List.mem_reverse] at hentry
      exact ⟨outer, rfl, hentry⟩
    · exact ih hfront

end FilledBy

/-! ### The types that are worked out -/

namespace DeclaredType

/-- **No level has the binary name of a level around it.** -/
def LevelsDiffer (t : DeclaredType) : Prop := (t.chain.map Declaration.binaryName).Nodup

instance : DecidablePred LevelsDiffer := fun t =>
  inferInstanceAs (Decidable (t.chain.map Declaration.binaryName).Nodup)

/-- **The types that a look-up works out**, in the order in which their names come out. The walk
outwards ends before a type that is known and after one that has a fixed name. -/
def workedOut (c : NameCache) : DeclaredType → List DeclaredType
  | topLevel d => if c.find? d.binaryName = none then [topLevel d] else []
  | nested d e =>
    if c.find? d.binaryName = none then
      (if d.fixedName? = none then e.workedOut c else []) ++ [nested d e]
    else []

variable {t e : DeclaredType} {d : Declaration} {c : NameCache} {name : String}

theorem workedOut_of_find?_eq_some (h : c.find? t.binaryName = some name) : t.workedOut c = [] := by
  have hne : c.find? t.declaration.binaryName ≠ none := Option.ne_none_iff_exists'.mpr ⟨name, h⟩
  cases t <;> exact if_neg hne

theorem workedOut_of_isSettled (h : c.find? t.binaryName = none) (ht : t.IsSettled) :
    t.workedOut c = [t] := by
  cases t with
  | topLevel d => exact if_pos h
  | nested d e =>
    have hnone : c.find? d.binaryName = none := h
    rcases ht with hfixed | henclosing
    · have hfixed' : d.fixedName? ≠ none := hfixed
      rw [workedOut, if_pos hnone, if_neg hfixed', List.nil_append]
    · cases henclosing

theorem workedOut_nested (h : c.find? d.binaryName = none) (hfixed : d.fixedName? = none) :
    (nested d e).workedOut c = e.workedOut c ++ [nested d e] := by
  rw [workedOut, if_pos h, if_pos hfixed]

end DeclaredType

/-- The types that are worked out when some types are looked up, one after the other. -/
def workedOutBy (c : NameCache) : List DeclaredType → List DeclaredType
  | [] => []
  | t :: types => t.workedOut c ++ workedOutBy (cached t c).store types

/-- **A run of steps is the whole of some look-ups**: it fills the cache from how they found it to how
they left it, is about the types that they worked out, and tells what they logged. -/
structure Accounts (steps : List (DeclaredType × String)) (c c' : NameCache)
    (types : List DeclaredType) (events : List Event) : Prop where
  filled : FilledBy c steps c'
  types : steps.map Prod.fst = types
  events : steps.map told = resolutions events

/-- A look-up that finds its name makes no step. -/
theorem accounts_of_find?_eq_some {t : DeclaredType} {c : NameCache} {name : String}
    (h : c.find? t.binaryName = some name) :
    Accounts [] c (cached t c).store (t.workedOut c) (cached t c).events := by
  rw [(cached_of_find?_eq_some h).2, events_cached_of_find?_eq_some h,
    DeclaredType.workedOut_of_find?_eq_some h]
  exact ⟨.none, rfl, rfl⟩

/-- A look-up fills the cache by steps, one for each type that it works out. -/
theorem exists_accounts_cached {t : DeclaredType} (h : t.LevelsDiffer) (c : NameCache) :
    ∃ steps, Accounts steps c (cached t c).store (t.workedOut c) (cached t c).events := by
  induction t using DeclaredType.walk_induction with
  | settled t ht =>
    cases hfind : c.find? t.binaryName with
    | some name => exact ⟨[], accounts_of_find?_eq_some hfind⟩
    | none =>
      obtain ⟨hname, hstore⟩ := cached.compute_of_isSettled ht c
      rw [(cached_of_find?_eq_none hfind).2, events_cached_of_find?_eq_none hfind, hname, hstore,
        cached.events_compute_of_isSettled ht, DeclaredType.workedOut_of_isSettled hfind ht]
      exact ⟨[(t, t.name)], FilledBy.none.settled hfind ht, rfl, rfl⟩
  | inside d e hfixed ih =>
    cases hfind : c.find? d.binaryName with
    | some name => exact ⟨[], accounts_of_find?_eq_some hfind⟩
    | none =>
      obtain ⟨hapart, hrest⟩ := List.nodup_cons.mp h
      obtain ⟨steps, hfilled, htypes, hevents⟩ := ih hrest
      -- the levels further out have other binary names, so the place is still free after them
      have hnew : (cached e c).store.find? d.binaryName = none := by
        rw [find?_cached_of_notMem hapart, hfind]
      obtain ⟨hname, hstore⟩ := cached.compute_nested hfixed e c
      have hfind' : c.find? (DeclaredType.nested d e).binaryName = none := hfind
      rw [(cached_of_find?_eq_none hfind').2, events_cached_of_find?_eq_none hfind', hname, hstore,
        cached.events_compute_nested hfixed, DeclaredType.workedOut_nested hfind hfixed]
      refine ⟨_, hfilled.inside hnew hfixed (find?_cached e c), ?_, ?_⟩
      · rw [List.map_append, htypes]
        rfl
      · rw [List.map_append, hevents, resolutions_append]
        rfl

/-- So do look-ups one after the other. -/
theorem exists_accounts_storeAfter {types : List DeclaredType} (h : ∀ t ∈ types, t.LevelsDiffer)
    (c : NameCache) :
    ∃ steps, Accounts steps c (cached.storeAfter types c) (workedOutBy c types)
      (cached.logAfter types c) := by
  induction types generalizing c with
  | nil => exact ⟨[], .none, rfl, rfl⟩
  | cons t types ih =>
    obtain ⟨ht, hrest⟩ := List.forall_mem_cons.mp h
    obtain ⟨steps, hfilled, htypes, hevents⟩ := exists_accounts_cached ht c
    obtain ⟨more, hfilled', htypes', hevents'⟩ := ih hrest (cached t c).store
    refine ⟨steps ++ more, hfilled.trans hfilled', ?_, ?_⟩
    · rw [List.map_append, htypes, htypes', workedOutBy]
    · rw [List.map_append, hevents, hevents', Supplier.logAfter, resolutions_append]

/-! ### What a session logs -/

/-- A method notes no resolution on the way to its names. -/
theorem Method.resolutions_run (m : Method) (supplier : Supplier NameCache) (c : NameCache) :
    resolutions (m.names.run supplier c).events = resolutions (supplier.logAfter m.wanted c) :=
  m.names_asks.filterMap_events (names_notes (fun _ _ => rfl) fun _ => rfl) supplier c

theorem NamingOptions.resolutions_methodNames (o : NamingOptions) (m : Method) (c : NameCache) :
    resolutions (o.methodNames m c).events = resolutions (o.supplier.logAfter m.wanted c) := by
  have hrun := m.resolutions_run o.supplier c
  rw [methodNames, Run.bind_apply]
  cases (m.names.run o.supplier c).value with
  | ok names => simpa using hrun
  | error e =>
    -- a failure is logged, but it is no resolution
    have hfailure : resolutions [.methodFailed m.name e] = [] := rfl
    simp [hrun, hfailure]

/-- **A request logs the resolutions that asking for the types it takes logs**, also where it
fails. -/
theorem Request.resolutions_answer (o : NamingOptions) (q : Request) (c : NameCache) :
    resolutions (q.answer o c).events = resolutions (o.supplier.logAfter q.wanted c) := by
  cases q with
  | typeName t => simp [answer, wanted, Supplier.logAfter]
  | typeMarker t => simp [answer, wanted, Supplier.logAfter]
  | useName u rootAsId =>
    have hrun : resolutions ((u.name rootAsId).run o.supplier c).events =
        resolutions (o.supplier.logAfter (u.wanted rootAsId) c) :=
      (u.name_asks rootAsId).filterMap_events (u.name_notes rootAsId) o.supplier c
    simpa [answer, wanted] using hrun
  | methodNames m => simpa [answer, wanted] using o.resolutions_methodNames m c
  | methodMarkers m =>
    have hnames := o.resolutions_methodNames m c
    have hmarked : ∀ annotated, resolutions [.methodMarked m.name annotated] = [] := fun _ => rfl
    rw [answer, Run.bind_apply, NamingOptions.methodMarkers, Run.bind_apply]
    cases (o.methodNames m c).value <;> simpa [wanted, hmarked] using hnames
  | fileMarker => rfl

/-- A session logs the resolutions that asking for all types it takes logs. -/
theorem Namer.resolutions_log (n : Namer) (requests : List Request) :
    resolutions (n.log requests) =
      resolutions (n.options.supplier.logAfter (requests.flatMap Request.wanted) n.cache) := by
  induction requests generalizing n with
  | nil => rfl
  | cons q requests ih =>
    have hfirst : (n.respond q).1.cache = n.options.supplier.storeAfter q.wanted n.cache :=
      q.store_answer n.options n.cache
    have hevents : resolutions (n.respond q).2.2 =
        resolutions (n.options.supplier.logAfter q.wanted n.cache) :=
      q.resolutions_answer n.options n.cache
    rw [log_cons, resolutions_append, ih, hfirst, hevents, List.flatMap_cons,
      Supplier.logAfter_append, resolutions_append]
    rfl

/-- What is logged from the making of a namer that keeps names on. -/
def sessionLog (exactMethodNames : Bool) (requests : List Request) : List Event :=
  (Namer.create { exactMethodNames, cacheTypeNames := true }).2 ++
    (newNamer exactMethodNames).log requests

/-- The steps of a session with a new namer, if no type has the binary name of a type around it. -/
theorem exists_accounts_session (exact : Bool) {requests : List Request}
    (h : ∀ q ∈ requests, ∀ t ∈ q.types, t.LevelsDiffer) :
    ∃ steps, Accounts steps .empty ((newNamer exact).cacheAfter requests)
      (workedOutBy .empty (requests.flatMap Request.wanted)) (sessionLog exact requests) := by
  have hwanted : ∀ t ∈ requests.flatMap Request.wanted, t.LevelsDiffer := by
    intro t ht
    obtain ⟨q, hq, ht⟩ := List.mem_flatMap.mp ht
    exact h q hq t (q.wanted_subset ht)
  have hcache : (newNamer exact).cacheAfter requests =
      cached.storeAfter (requests.flatMap Request.wanted) .empty :=
    (newNamer exact).cacheAfter_eq requests
  have hlog : resolutions (sessionLog exact requests) =
      resolutions (cached.logAfter (requests.flatMap Request.wanted) .empty) :=
    (newNamer exact).resolutions_log requests
  obtain ⟨steps, hfilled, htypes, hevents⟩ := exists_accounts_storeAfter hwanted .empty
  exact ⟨steps, hcache ▸ hfilled, htypes, hevents.trans hlog.symm⟩

/-- **Every name is worked out and logged once**, in a session with a new namer that keeps names and
at every point of it, if no type has the binary name of a type around it.

* There are as many resolutions in the log as names in the cache, and no two of them have one binary
  name.
* The name that a resolution tells is the one that is kept for the binary name, and the answer for
  every type of that binary name, at any later time.
* The resolutions are about the types that the look-ups of the session work out, in order. Where the
  name of one of them is formed from that of the type around it, that type's binary name has a
  resolution before it, and the name that it tells is what the formed name begins with. -/
theorem resolutions_tell_cache (exact : Bool) (requests : List Request)
    (h : ∀ q ∈ requests, ∀ t ∈ q.types, t.LevelsDiffer) (done : List Request)
    (hdone : done <+: requests) :
    let resolved := resolutions (sessionLog exact done)
    let types := workedOutBy .empty (done.flatMap Request.wanted)
    resolved.length = ((newNamer exact).cacheAfter done).size ∧
    (resolved.map Prod.fst).Nodup ∧
    (∀ key name, (key, name) ∈ resolved → ∀ later : List Request,
      ((newNamer exact).cacheAfter (done ++ later)).find? key = some name ∧
      ∀ t : DeclaredType, t.binaryName = key →
        (cached t ((newNamer exact).cacheAfter (done ++ later))).value = name) ∧
    resolved.map Prod.fst = types.map DeclaredType.binaryName ∧
    ∀ front d e back, types = front ++ .nested d e :: back → ¬d.IsNamed →
      ∃ before outer after,
        resolved = before ++ (d.binaryName, outer ++ "_" ++ underscored d.simpleName) :: after ∧
        before.map Prod.fst = front.map DeclaredType.binaryName ∧ (e.binaryName, outer) ∈ before := by
  intro resolved types
  obtain ⟨steps, hfilled, htypes, hevents⟩ :=
    exists_accounts_session exact fun q hq => h q (hdone.subset hq)
  have hresolved : resolved = steps.map told := hevents.symm
  have hentries : ((newNamer exact).cacheAfter done).entries = resolved.reverse := by
    rw [hfilled.entries, hresolved]
    exact List.append_nil _
  have hkeys : ∀ steps : List (DeclaredType × String),
      (steps.map told).map Prod.fst = (steps.map Prod.fst).map DeclaredType.binaryName := by
    intro steps
    rw [List.map_map, List.map_map]
    rfl
  refine ⟨?_, ?_, fun key name hmem later => ?_, ?_, fun front d e back hsplit hnamed => ?_⟩
  · rw [NameCache.size, hentries, List.length_reverse]
  · have hnodup := ((newNamer exact).cacheAfter done).nodup
    rw [hentries, List.map_reverse] at hnodup
    exact (List.reverse_perm _).nodup_iff.mp hnodup
  · have hkept : ((newNamer exact).cacheAfter done).find? key = some name := by
      rw [NameCache.find?_eq_some_iff, hentries]
      exact List.mem_reverse.mpr hmem
    -- what comes later leaves the kept names as they are
    have hstays : ((newNamer exact).cacheAfter (done ++ later)).find? key = some name := by
      rw [Namer.cacheAfter, Run.store_mapM_append]
      exact Run.le_mapM (fun q _ c => q.le_answer rfl c) _ _ _ hkept
    exact ⟨hstays, fun t ht => (cached_of_find?_eq_some (ht ▸ hstays)).1⟩
  · rw [hresolved, hkeys, htypes]
  · -- the step of this type, and the steps before and after it
    obtain ⟨frontSteps, rest, rfl, hfront, hrest⟩ := List.map_eq_append_iff.mp (htypes.trans hsplit)
    obtain ⟨⟨t, name⟩, backSteps, rfl, rfl, -⟩ := List.map_eq_cons_iff.mp hrest
    have hfixed := Declaration.fixedName?_eq_none_iff.mpr hnamed
    obtain ⟨outer, rfl, hearlier⟩ := hfilled.exists_earlier hfixed
    have htold : (e.binaryName, outer) ∈ frontSteps.map told :=
      hearlier.resolve_right List.not_mem_nil
    refine ⟨frontSteps.map told, outer, backSteps.map told, ?_, by rw [hkeys, hfront], htold⟩
    rw [hresolved, List.map_append, List.map_cons, told, Declaration.nameInside,
      Declaration.baseName_eq]
    rfl

/-- A method that fails has the types before its `void` parameter looked up and logged, the outer one
first, and a later type of the same binary name as one of them is no second event. -/
theorem resolutions_of_failure_and_stray :
    let inner := (DeclaredType.ofQualifiedName "a.B").nestedIn "$1"
    let stray := DeclaredType.ofNames "a.B" "Stray"
    let failing : Method :=
      { name := "m", parameters := [⟨"x", .declared inner⟩, ⟨"y", .primitive .void⟩] }
    let requests := [Request.methodMarkers failing, .typeName stray, .typeName (inner.nestedIn "C")]
    (∀ q ∈ requests, ∀ t ∈ q.types, t.LevelsDiffer) ∧
      resolutions (sessionLog true requests) =
        [("a.B", "AB"), ("a.B$$1", "AB__1"), ("a.B$$1$C", "AB__1_C")] ∧
      ((newNamer true).cacheAfter requests).size = 3 ∧
      (cached stray ((newNamer true).cacheAfter requests)).value = "AB" := by
  intro inner stray failing requests
  have hdiffer : ∀ q ∈ requests, ∀ t ∈ q.types, t.LevelsDiffer := by decide
  have hresolved : resolutions (sessionLog true requests) =
      [("a.B", "AB"), ("a.B$$1", "AB__1"), ("a.B$$1$C", "AB__1_C")] := by decide
  obtain ⟨hlength, -, hkept, -⟩ :=
    resolutions_tell_cache true requests hdiffer requests (List.prefix_refl _)
  rw [hresolved] at hlength hkept
  have hstray := (hkept "a.B" "AB" List.mem_cons_self []).2 stray rfl
  exact ⟨hdiffer, hresolved, hlength.symm, by rwa [List.append_nil] at hstray⟩

/-- A type of the binary name of the one around it is logged in spite of the entry that is there by
then, so there are two resolutions for one entry. -/
example :
    let inner : DeclaredType :=
      .nested { binaryName := "K", simpleName := "I" } (DeclaredType.ofNames "K" "O")
    resolutions (sessionLog true [.typeName inner]) = [("K", "O"), ("K", "O_I")] ∧
      ((newNamer true).cacheAfter [.typeName inner]).size = 1 := by
  decide

end BridgeNames
