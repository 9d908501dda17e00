import BridgeNames.Proofs.Cache.Lookup
import BridgeNames.Proofs.Naming.TypeLevels
import BridgeNames.Proofs.Supply.Session
import Mathlib.Data.Set.Insert

/-!
# How the cache grows

A look-up adds a key for every level that it meets on its walk outwards, and no other key. The walk
is described on the chain of levels alone (`BridgeNames.DeclaredType.met`): it ends before the
first level whose binary name is known already, and after the first level that has a name of its own
(`BridgeNames.Declaration.IsNamed`) or around which there is nothing. What the entries are, and which
of two levels of one binary name came first, does not matter, so nothing is assumed of the types or
of the cache.

From one look-up the growth goes over to whatever asks for types: a request asks for certain types
in order, and each of them meets the keys that the ones before it have left
(`BridgeNames.grown`). A request that fails has asked for types up to the failure, and the keys it
added until then stay.
-/

namespace BridgeNames

/-! ### Keys as a set -/

namespace NameCache

/-- The binary names that have a name. -/
def keySet (c : NameCache) : Set String := {key | key ∈ c.keys}

variable {c : NameCache} {key name : String}

theorem mem_keySet_of_find? (h : c.find? key = some name) : key ∈ c.keySet := by
  by_contra hkey
  rw [find?_eq_none_iff.mpr hkey] at h
  cases h

theorem notMem_keySet_of_find? (h : c.find? key = none) : key ∉ c.keySet := find?_eq_none_iff.mp h

theorem keySet_keep (c : NameCache) (key name : String) :
    (c.keep key name).keySet = insert key c.keySet := by
  ext other
  simp only [keySet, Set.mem_ofPred_eq, Set.mem_insert_iff, keys_keep]
  split
  · next hkey => exact ⟨Or.inr, fun h => h.elim (fun heq => heq ▸ hkey) id⟩
  · exact List.mem_cons

end NameCache

/-! ### The walk outwards -/

namespace DeclaredType

/-- **The binary names that a walk outwards meets.** A level is met if its name is not known, and
if no level before it is known or has a name of its own. -/
def met (t : DeclaredType) (known : Set String) : Set String :=
  {key | ∃ front d back, t.chain = front ++ d :: back ∧ d.binaryName = key ∧ key ∉ known ∧
    ∀ e ∈ front, ¬e.IsNamed ∧ e.binaryName ∉ known}

variable {t e : DeclaredType} {d : Declaration} {known : Set String} {key : String}

theorem chain_eq_cons (t : DeclaredType) : ∃ outer, t.chain = t.declaration :: outer := by
  cases t with
  | topLevel d => exact ⟨[], rfl⟩
  | nested d e => exact ⟨e.chain, rfl⟩

/-- Nothing is met from a known level on. -/
theorem met_of_known (h : t.binaryName ∈ known) : t.met known = ∅ := by
  rw [Set.eq_empty_iff_forall_notMem]
  rintro key ⟨front, d, back, hchain, rfl, hkey, hfront⟩
  obtain ⟨outer, houter⟩ := t.chain_eq_cons
  rw [houter] at hchain
  rcases front with _ | ⟨first, front⟩
  · obtain ⟨rfl, -⟩ := List.cons.inj hchain
    exact hkey h
  · obtain ⟨rfl, -⟩ := List.cons.inj hchain
    exact (hfront _ List.mem_cons_self).2 h

/-- A settled level is the last one that is met. -/
theorem met_of_isSettled (hkey : t.binaryName ∉ known) (h : t.IsSettled) :
    t.met known = {t.binaryName} := by
  obtain ⟨outer, houter⟩ := t.chain_eq_cons
  ext key
  constructor
  · rintro ⟨front, d, back, hchain, rfl, -, hfront⟩
    rw [houter] at hchain
    rcases front with _ | ⟨first, front⟩
    · obtain ⟨rfl, -⟩ := List.cons.inj hchain
      exact Set.mem_singleton _
    · -- a level that is met later comes after one that ends the walk
      exfalso
      obtain ⟨hfirst, hrest⟩ := List.cons.inj hchain
      rcases h with hfixed | hnone
      · have hopen : ¬first.IsNamed := (hfront first List.mem_cons_self).1
        rw [hfirst] at hfixed
        exact hfixed (Declaration.fixedName?_eq_none_iff.mpr hopen)
      · cases t with
        | topLevel d' =>
          obtain rfl : outer = [] := (List.cons.inj houter).2.symm
          simp at hrest
        | nested d' e' => cases hnone
  · rintro rfl
    exact ⟨[], t.declaration, outer, houter, rfl, hkey, by simp⟩

/-- From any other level the walk goes on outside it. -/
theorem met_nested (hkey : d.binaryName ∉ known) (hfixed : d.fixedName? = none) :
    (nested d e).met known = insert d.binaryName (e.met known) := by
  have hnamed : ¬d.IsNamed := Declaration.fixedName?_eq_none_iff.mp hfixed
  ext key
  constructor
  · rintro ⟨front, d', back, hchain, rfl, hnew, hfront⟩
    rw [chain] at hchain
    rcases front with _ | ⟨first, front⟩
    · obtain ⟨rfl, -⟩ := List.cons.inj hchain
      exact Or.inl rfl
    · obtain ⟨-, hrest⟩ := List.cons.inj hchain
      have hfront' : ∀ e' ∈ front, ¬e'.IsNamed ∧ e'.binaryName ∉ known :=
        fun e' he' => hfront e' (List.mem_cons_of_mem _ he')
      exact Or.inr ⟨front, d', back, hrest, rfl, hnew, hfront'⟩
  · rintro (rfl | ⟨front, d', back, hchain, rfl, hnew, hfront⟩)
    · exact ⟨[], d, e.chain, rfl, rfl, hkey, by simp⟩
    · refine ⟨d :: front, d', back, ?_, rfl, hnew, ?_⟩
      · rw [chain, hchain]
        rfl
      · intro e' he'
        rcases List.mem_cons.mp he' with rfl | he'
        · exact ⟨hnamed, hkey⟩
        · exact hfront e' he'

end DeclaredType

/-! ### The growth -/

/-- **A look-up adds the keys that its walk meets**, and no others. -/
theorem keySet_cached (t : DeclaredType) (c : NameCache) :
    (cached t c).store.keySet = c.keySet ∪ t.met c.keySet := by
  refine cached_induction (motive := fun t c _ c' => c'.keySet = c.keySet ∪ t.met c.keySet)
    ?_ ?_ ?_ t c
  · intro t c name hfind
    rw [DeclaredType.met_of_known (NameCache.mem_keySet_of_find? hfind), Set.union_empty]
  · intro t c hfind hsettled
    have hnew := NameCache.notMem_keySet_of_find? hfind
    rw [NameCache.keySet_keep, DeclaredType.met_of_isSettled hnew hsettled, Set.union_singleton]
  · intro d e c name c' hfixed hfind ih
    have hnew := NameCache.notMem_keySet_of_find? hfind
    rw [NameCache.keySet_keep, ih, DeclaredType.met_nested hnew hfixed, Set.union_insert]

/-- The keys that are known after some types have been looked up, one after the other. -/
def grown (known : Set String) (types : List DeclaredType) : Set String :=
  types.foldl (fun known t => known ∪ t.met known) known

theorem keySet_storeAfter_cached (types : List DeclaredType) (c : NameCache) :
    (cached.storeAfter types c).keySet = grown c.keySet types := by
  induction types generalizing c with
  | nil => rfl
  | cons t types ih =>
    rw [Supplier.storeAfter_cons, ih, keySet_cached]
    rfl

/-- A session with a caching namer adds the keys that its requests ask for, in order. -/
theorem keySet_session (o : NamingOptions) (requests : List Request) (c : NameCache) :
    (requests.mapM (Request.answer { o with cacheTypeNames := true }) c).store.keySet =
      grown c.keySet (requests.flatMap Request.wanted) := by
  let n : Namer := { options := { o with cacheTypeNames := true }, cache := c }
  have hsession : n.cacheAfter requests =
      cached.storeAfter (requests.flatMap Request.wanted) c := n.cacheAfter_eq requests
  exact (congrArg NameCache.keySet hsession).trans (keySet_storeAfter_cached _ c)

/-- **What a cache comes to hold**, from any cache and for any types.

* A look-up adds the binary names that its walk outwards meets.
* A use asks for its declared leaf at most, and a method for the types of `Method.wanted`; a method
  without a selector that fails on a `void` parameter has asked for those before it.
* A session adds what its requests ask for, one after the other, failed ones included. -/
theorem keySet_growth :
    (∀ (t : DeclaredType) (c : NameCache),
      (cached t c).store.keySet = c.keySet ∪ t.met c.keySet) ∧
    (∀ (u : TypeUse) (rootAsId : Bool), (u.name rootAsId).Asks (u.wanted rootAsId)) ∧
    (∀ m : Method, m.names.Asks m.wanted) ∧
    (∀ m : Method, m.isExposed = true → m.selector = none →
      (∃ p ∈ m.parameters, p.type.IsVoid) →
      m.names.AsksThen (labelTypes m.parameters) (· = .error (.unexpectedPrimitive .void))) ∧
    ∀ (o : NamingOptions) (requests : List Request) (c : NameCache),
      (requests.mapM (Request.answer { o with cacheTypeNames := true }) c).store.keySet =
        grown c.keySet (requests.flatMap Request.wanted) := by
  refine ⟨keySet_cached, TypeUse.name_asks, Method.names_asks, ?_, keySet_session⟩
  intro m hm hselector hvoid
  exact Method.names_asksThen_of_none_of_isVoid hm hselector hvoid

end BridgeNames
