import BridgeNames.Proofs.Cache.Consistency
import BridgeNames.Proofs.Cache.Growth
import Mathlib.Data.List.Perm.Subperm

/-!
# Sessions in any order

If binary names identify the types that a session mentions, it does not matter in which order its
requests come, nor how often each of them: every request has one reply, and the cache comes to hold
the same names. A generator may therefore go through its files as it likes.

For the replies this is a matter of right answers, which is settled where keeping names is shown
not to show. What is left is which keys the cache has in the end. A look-up from a cache that holds
something adds less than the same look-up from an empty one, and how much less depends on the order.
But the keys come to the same, because the cache is **closed** all the time
(`BridgeNames.ClosedWalks`): together with the name of a type it has a name for whatever a look-up
of that type meets. So the keys in the end are those that the look-ups meet one by one from an empty
cache, put together (`BridgeNames.grown_eq_union`), and a union has no order.

Consistent names are not enough here: two types of one binary name and one name may still be nested
in different types, and then the one that comes first decides which keys are added.
-/

namespace BridgeNames

/-! ### The types that occur -/

/-- The type and the types around it, the innermost first. -/
def DeclaredType.outwards : DeclaredType → List DeclaredType
  | topLevel d => [topLevel d]
  | nested d e => nested d e :: e.outwards

/-- **The types that occur in requests**, mentioned themselves or around one that is. -/
def occurring (requests : List Request) : List DeclaredType :=
  (requests.flatMap Request.types).flatMap DeclaredType.outwards

/-- **Binary names identify the types of a set.** -/
def Identified (U : Set DeclaredType) : Prop :=
  ∀ t ∈ U, ∀ u ∈ U, t.binaryName = u.binaryName → t = u

instance (types : List DeclaredType) : Decidable (Identified {t | t ∈ types}) :=
  inferInstanceAs (Decidable (∀ t ∈ types, ∀ u ∈ types, t.binaryName = u.binaryName → t = u))

variable {U : Set DeclaredType} {t u : DeclaredType} {known : Set String} {key : String}

theorem DeclaredType.self_mem_outwards (t : DeclaredType) : t ∈ t.outwards := by
  cases t <;> exact List.mem_cons_self

theorem DeclaredType.mem_outwards_of_enclosing? {e : DeclaredType} (ht : t ∈ u.outwards)
    (he : t.enclosing? = some e) : e ∈ u.outwards := by
  induction u with
  | topLevel d =>
    obtain rfl : t = topLevel d := List.mem_singleton.mp ht
    cases he
  | nested d outer ih =>
    rcases List.mem_cons.mp ht with rfl | ht
    · obtain rfl : outer = e := Option.some.inj he
      exact List.mem_cons_of_mem _ outer.self_mem_outwards
    · exact List.mem_cons_of_mem _ (ih ht)

theorem mem_of_mem_outwards (hclosed : ClosedOutwards U) (ht : t ∈ U) (hu : u ∈ t.outwards) :
    u ∈ U := by
  induction t with
  | topLevel d =>
    obtain rfl : u = .topLevel d := List.mem_singleton.mp hu
    exact ht
  | nested d e ih =>
    rcases List.mem_cons.mp hu with rfl | hu
    · exact ht
    · exact ih (hclosed _ ht e rfl) hu

theorem closedOutwards_occurring (requests : List Request) :
    ClosedOutwards {t | t ∈ occurring requests} := by
  intro t ht e he
  obtain ⟨leaf, hleaf, ht⟩ := List.mem_flatMap.mp ht
  exact List.mem_flatMap.mpr ⟨leaf, hleaf, DeclaredType.mem_outwards_of_enclosing? ht he⟩

theorem mem_occurring {requests : List Request} {q : Request} (hq : q ∈ requests)
    (ht : t ∈ q.types) : t ∈ occurring requests :=
  List.mem_flatMap.mpr ⟨t, List.mem_flatMap.mpr ⟨q, hq, ht⟩, t.self_mem_outwards⟩

theorem Identified.consistent (h : Identified U) : Consistent U :=
  fun t ht u hu hkey => congrArg DeclaredType.name (h t ht u hu hkey)

/-! ### Walks from an empty cache -/

/-- Whatever a walk meets is the binary name of a type on the way, and the walk goes on from there
as it would if it began there. -/
theorem exists_of_mem_met (h : key ∈ t.met ∅) :
    ∃ u ∈ t.outwards, u.binaryName = key ∧ u.met ∅ ⊆ t.met ∅ := by
  induction t using DeclaredType.walk_induction with
  | settled t hsettled =>
    rw [DeclaredType.met_of_isSettled (Set.notMem_empty _) hsettled] at h
    exact ⟨t, t.self_mem_outwards, h.symm, Set.Subset.refl _⟩
  | inside d e hfixed ih =>
    have hmet := DeclaredType.met_nested (e := e) (Set.notMem_empty d.binaryName) hfixed
    rw [hmet] at h
    rcases h with rfl | h
    · exact ⟨.nested d e, DeclaredType.self_mem_outwards _, rfl, Set.Subset.refl _⟩
    · obtain ⟨u, hu, hkey, hsub⟩ := ih h
      rw [hmet]
      exact ⟨u, List.mem_cons_of_mem _ hu, hkey, hsub.trans (Set.subset_insert _ _)⟩

/-- **The known names are closed**: with that of a type they hold what its walk meets. -/
def ClosedWalks (U : Set DeclaredType) (known : Set String) : Prop :=
  ∀ t ∈ U, t.binaryName ∈ known → t.met ∅ ⊆ known

theorem closedWalks_empty (U : Set DeclaredType) : ClosedWalks U ∅ :=
  fun _ _ hkey => absurd hkey (Set.notMem_empty _)

/-- What a walk leaves out, since it ends at a known name, is known already. -/
theorem ClosedWalks.union_met_eq (hclosed : ClosedOutwards U) (h : ClosedWalks U known)
    (ht : t ∈ U) : known ∪ t.met known = known ∪ t.met ∅ := by
  -- a known name ends the walk, and the rest of the walk from an empty cache is known with it
  have hknown : ∀ u ∈ U, u.binaryName ∈ known → known ∪ u.met known = known ∪ u.met ∅ := by
    intro u hu hkey
    rw [DeclaredType.met_of_known hkey, Set.union_empty, Set.union_eq_left.mpr (h u hu hkey)]
  induction t using DeclaredType.walk_induction with
  | settled t hsettled =>
    by_cases hkey : t.binaryName ∈ known
    · exact hknown t ht hkey
    · rw [DeclaredType.met_of_isSettled hkey hsettled,
        DeclaredType.met_of_isSettled (Set.notMem_empty _) hsettled]
  | inside d e hfixed ih =>
    by_cases hkey : d.binaryName ∈ known
    · exact hknown _ ht hkey
    · rw [DeclaredType.met_nested hkey hfixed,
        DeclaredType.met_nested (Set.notMem_empty _) hfixed, Set.union_insert, Set.union_insert,
        ih (hclosed _ ht e rfl)]

/-- A walk leaves the known names closed. Here it counts that binary names identify types: the type
whose name is met has to be the very one that is looked at. -/
theorem ClosedWalks.union_met (hclosed : ClosedOutwards U) (hid : Identified U)
    (h : ClosedWalks U known) (ht : t ∈ U) : ClosedWalks U (known ∪ t.met ∅) := by
  intro u hu hkey
  rcases hkey with hkey | hkey
  · exact (h u hu hkey).trans Set.subset_union_left
  · obtain ⟨v, hv, hname, hsub⟩ := exists_of_mem_met hkey
    obtain rfl : v = u := hid v (mem_of_mem_outwards hclosed ht hv) u hu hname
    exact hsub.trans Set.subset_union_right

/-- **The keys after some look-ups are what the look-ups meet one by one from an empty cache.** -/
theorem grown_eq_union (hclosed : ClosedOutwards U) (hid : Identified U) {types : List DeclaredType}
    (htypes : ∀ t ∈ types, t ∈ U) (h : ClosedWalks U known) :
    grown known types = known ∪ {key | ∃ t ∈ types, key ∈ t.met ∅} := by
  -- the known names vary along the induction, and stay closed
  induction types generalizing known with
  | nil => simp [grown]
  | cons t types ih =>
    have ht : t ∈ U := htypes t List.mem_cons_self
    have hrest := ih (fun u hu => htypes u (List.mem_cons_of_mem _ hu))
      (h.union_met hclosed hid ht)
    calc grown known (t :: types) = grown (known ∪ t.met known) types := rfl
      _ = grown (known ∪ t.met ∅) types := by rw [h.union_met_eq hclosed ht]
      _ = known ∪ t.met ∅ ∪ {key | ∃ u ∈ types, key ∈ u.met ∅} := hrest
      _ = known ∪ {key | ∃ u ∈ t :: types, key ∈ u.met ∅} := by
        ext key
        simp [or_assoc]

/-! ### The cache in the end -/

/-- The keys of a cache that are met on walks are binary names of types of the set. -/
theorem exists_of_mem_walks (hclosed : ClosedOutwards U) {types : List DeclaredType}
    (htypes : ∀ t ∈ types, t ∈ U) (h : key ∈ {key | ∃ t ∈ types, key ∈ t.met ∅}) :
    ∃ u ∈ U, u.binaryName = key := by
  obtain ⟨t, ht, hkey⟩ := h
  obtain ⟨u, hu, hname, -⟩ := exists_of_mem_met hkey
  exact ⟨u, mem_of_mem_outwards hclosed (htypes t ht) hu, hname⟩

/-- Two caches that agree with the names of the types hold the same names if they have the same
keys. -/
theorem NameCache.find?_eq_of_agreesOn {c c' : NameCache} (hc : c.AgreesOn U)
    (hc' : c'.AgreesOn U) (hkeys : c.keySet = c'.keySet)
    (hnames : ∀ key ∈ c.keySet, ∃ t ∈ U, t.binaryName = key) (key : String) :
    c.find? key = c'.find? key := by
  cases hfind : c.find? key with
  | none =>
    have hkey : key ∉ c'.keySet := hkeys ▸ notMem_keySet_of_find? hfind
    exact (find?_eq_none_iff.mpr hkey).symm
  | some name =>
    -- the key belongs to a type of the set, and both caches hold the name of that type
    have hkey : key ∈ c.keySet := mem_keySet_of_find? hfind
    obtain ⟨t, ht, rfl⟩ := hnames key hkey
    obtain ⟨name', hfind'⟩ : ∃ name', c'.find? t.binaryName = some name' := by
      rw [← Option.ne_none_iff_exists', Ne, find?_eq_none_iff]
      exact not_not_intro (hkeys ▸ hkey : t.binaryName ∈ c'.keySet)
    rw [hfind', hc t ht name hfind, hc' t ht name' hfind']

section Sessions

variable {requests session : List Request}

/-- A namer that keeps names, newly made. -/
def newNamer (exactMethodNames : Bool) : Namer :=
  (Namer.create { exactMethodNames, cacheTypeNames := true }).1

/-- What the requests of a session take is among what they mention. -/
theorem mem_of_mem_wanted (hsession : ∀ q ∈ session, ∀ t ∈ q.types, t ∈ U) :
    ∀ t ∈ session.flatMap Request.wanted, t ∈ U := by
  intro t ht
  obtain ⟨q, hq, ht⟩ := List.mem_flatMap.mp ht
  exact hsession q hq t (q.wanted_subset ht)

/-- A session with a new namer leaves a cache that agrees with the names of the types. -/
theorem agreesOn_cacheAfter (hclosed : ClosedOutwards U) (hU : Consistent U) (exact : Bool)
    (hsession : ∀ q ∈ session, ∀ t ∈ q.types, t ∈ U) :
    ((newNamer exact).cacheAfter session).AgreesOn U := by
  have hfaithful : (newNamer exact).options.supplier.Faithful U (·.AgreesOn U) :=
    cached_faithful hclosed hU
  refine Run.invariant_mapM (NameCache.AgreesOn · U) (fun q hq c hc => ?_)
    (NameCache.agreesOn_empty U)
  have hwanted : ∀ t ∈ q.wanted, t ∈ U := fun t ht => hsession q hq t (q.wanted_subset ht)
  exact (Request.answer_of_names (fun t ht => hfaithful t (hwanted t ht)) hc).2

/-- The keys that a session with a new namer leaves are what its look-ups meet from an empty
cache. -/
theorem keySet_cacheAfter (hclosed : ClosedOutwards U) (hid : Identified U) (exact : Bool)
    (hsession : ∀ q ∈ session, ∀ t ∈ q.types, t ∈ U) :
    ((newNamer exact).cacheAfter session).keySet =
      {key | ∃ t ∈ session.flatMap Request.wanted, key ∈ t.met ∅} := by
  have hempty : NameCache.empty.keySet = ∅ := by
    ext key
    simp [NameCache.keySet, NameCache.keys, NameCache.empty]
  have hgrown := keySet_session { exactMethodNames := exact } session .empty
  rw [hempty, grown_eq_union hclosed hid (mem_of_mem_wanted hsession) (closedWalks_empty U),
    Set.empty_union] at hgrown
  exact hgrown

/-- Sessions of the same requests, in whatever order and number, leave caches that hold the same
names. -/
theorem find?_cacheAfter_eq (h : Identified {t | t ∈ occurring requests})
    (hsame : ∀ q, q ∈ session ↔ q ∈ requests) (exact : Bool) (key : String) :
    ((newNamer exact).cacheAfter session).find? key =
      ((newNamer exact).cacheAfter requests).find? key := by
  have hclosed := closedOutwards_occurring requests
  have hrequests : ∀ q ∈ requests, ∀ t ∈ q.types, t ∈ {t | t ∈ occurring requests} :=
    fun q hq t ht => mem_occurring hq ht
  have hsession : ∀ q ∈ session, ∀ t ∈ q.types, t ∈ {t | t ∈ occurring requests} :=
    fun q hq => hrequests q ((hsame q).mp hq)
  have hkeys : ((newNamer exact).cacheAfter session).keySet =
      ((newNamer exact).cacheAfter requests).keySet := by
    rw [keySet_cacheAfter hclosed h exact hsession, keySet_cacheAfter hclosed h exact hrequests]
    ext key
    simp only [List.mem_flatMap, hsame]
  refine NameCache.find?_eq_of_agreesOn (agreesOn_cacheAfter hclosed h.consistent exact hsession)
    (agreesOn_cacheAfter hclosed h.consistent exact hrequests) hkeys (fun key hkey => ?_) key
  rw [keySet_cacheAfter hclosed h exact hsession] at hkey
  exact exists_of_mem_walks hclosed (mem_of_mem_wanted hsession) hkey

/-- **The order of a session does not matter**, if binary names identify the types that occur in it.
Each request has a reply of its own, an error where it fails, which it gets wherever it stands; and
the same binary names have the same names in the cache afterwards. Both are so in every session that
puts the requests in another order, and puts some of them in again, as often as it likes and
anywhere. -/
theorem replies_order_free (exact : Bool) (requests : List Request)
    (h : Identified {t | t ∈ occurring requests}) :
    ∃ reply : Request → Reply, ∀ session : List Request,
      requests.Subperm session → session ⊆ requests →
      (newNamer exact).replies session = session.map reply ∧
        ∀ key, ((newNamer exact).cacheAfter session).find? key =
          ((newNamer exact).cacheAfter requests).find? key := by
  refine ⟨Request.replyWith DeclaredType.name exact, fun session hsub hsubset => ?_⟩
  have hsame : ∀ q, q ∈ session ↔ q ∈ requests :=
    fun q => ⟨fun hq => hsubset hq, fun hq => hsub.subset hq⟩
  have hfaithful : (newNamer exact).options.supplier.Faithful {t | t ∈ occurring requests}
      (·.AgreesOn {t | t ∈ occurring requests}) :=
    cached_faithful (closedOutwards_occurring requests) h.consistent
  refine ⟨?_, find?_cacheAfter_eq h hsame exact⟩
  exact replies_of_faithful hfaithful (NameCache.agreesOn_empty _)
    fun q hq t ht => mem_occurring ((hsame q).mp hq) ht

/-- A method that fails on a `void` parameter still has the type before it looked up. In a session
put in reverse, or put in twice, it fails again and all else comes out the same. -/
theorem replies_of_failure_in_any_order :
    let outer := DeclaredType.ofQualifiedName "a.Outer"
    let inner := outer.nestedIn "Inner"
    let failing : Method :=
      { name := "m", parameters := [⟨"x", .declared inner⟩, ⟨"y", .primitive .void⟩] }
    let requests := [Request.methodNames failing, .typeName (inner.nestedIn "Leaf"),
      .useName (.array (.declared outer) 2) true]
    Identified {t | t ∈ occurring requests} ∧
      (newNamer true).replies requests.reverse = ((newNamer true).replies requests).reverse ∧
      (newNamer true).replies (requests ++ requests) =
        (newNamer true).replies requests ++ (newNamer true).replies requests ∧
      ∀ key, ((newNamer true).cacheAfter requests.reverse).find? key =
        ((newNamer true).cacheAfter requests).find? key := by
  intro outer inner failing requests
  have hid : Identified {t | t ∈ occurring requests} := by decide
  obtain ⟨reply, hreply⟩ := replies_order_free true requests hid
  have hall : requests ⊆ requests := fun _ h => h
  obtain ⟨hsame, -⟩ := hreply requests (List.Subperm.refl _) hall
  obtain ⟨hreverse, hcache⟩ :=
    hreply requests.reverse (List.reverse_perm _).symm.subperm (List.reverse_subset.mpr hall)
  obtain ⟨htwice, -⟩ := hreply (requests ++ requests)
    (List.sublist_append_left _ _).subperm (List.append_subset.mpr ⟨hall, hall⟩)
  refine ⟨hid, ?_, ?_, hcache⟩
  · rw [hreverse, hsame, List.map_reverse]
  · rw [htwice, hsame, List.map_append]

end Sessions

end BridgeNames
