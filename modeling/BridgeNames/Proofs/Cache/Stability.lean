import BridgeNames.Proofs.Cache.Consistency
import BridgeNames.Proofs.Naming.Alike
import BridgeNames.Proofs.Naming.TypeLevels
import Mathlib.Order.Basic

/-!
# Answers that stay

A cache gives one name for one binary name, and gives it again until it is cleared. That needs no
assumption on the types: several may share a binary name, and a type may share it with one that it
is nested in.

The order to think in is the one of caches that hold more and more (`c ≤ c'` if `c'` has all names
that `c` has). Whatever is asked, the cache goes up in it, and only clearing takes it down. An
answer is in the cache as soon as it is given, so it is there at any later time, and so is whatever
was asked for on the way to the names of a use or of a method. Hence a question that was answered
once is answered from the cache alone from then on, and so is every question that is alike
(`BridgeNames.Naming.Alike.run_cached`).

What an answer is in the first place, where binary names do not identify types, is another matter:
it is the name that was kept first, which need not be the one that was worked out last
(`BridgeNames.cached_of_taken`).

All of this is said twice, for a cache that is asked directly and for a namer that has one. A namer
is its cache and what it replies: every reply is formed from the names that the cache holds
afterwards (`BridgeNames.Namer.exists_names_of_caches`), and where it held them before, the cache
stays as it was (`BridgeNames.Namer.RepliesBy`).
-/

namespace BridgeNames

open Naming

/-! ### Caches that hold more -/

/-- A cache is above another if it holds all names that the other one holds. -/
instance : Preorder NameCache where
  le c c' := ∀ key name, c.find? key = some name → c'.find? key = some name
  le_refl _ _ _ h := h
  le_trans _ _ _ h h' key name hfind := h' key name (h key name hfind)

variable {c c' : NameCache} {t u e : DeclaredType} {d : Declaration} {name : String}

theorem le_cached (t : DeclaredType) (c : NameCache) : c ≤ (cached t c).store :=
  fun _ _ hfind => find?_cached_of_some hfind t

theorem le_compute_cached (t : DeclaredType) (c : NameCache) :
    c ≤ (cached.compute t c).store := by
  rcases Classical.em t.IsSettled with hsettled | hopen
  · rw [(cached.compute_of_isSettled hsettled c).2]
  · obtain ⟨d, e, rfl, hfixed⟩ := DeclaredType.exists_of_not_isSettled hopen
    rw [(cached.compute_nested hfixed e c).2]
    exact le_cached e c

theorem le_run_cached {α : Type} (x : Naming α) (c : NameCache) :
    c ≤ (x.run cached c).store := by
  induction x generalizing c with
  | done value => exact le_refl c
  | fail error => exact le_refl c
  | ask t next ih => exact (le_cached t c).trans (ih _ _)
  | note event x ih => exact ih c

/-- **Every question but clearing leaves the kept names as they are.** -/
theorem Question.le_put {q : Question} (h : q ≠ .clear) (c : NameCache) :
    c ≤ (q.put cached c).store := by
  cases q with
  | typeName t => exact le_cached t c
  | computedName t => exact le_compute_cached t c
  | useName u rootAsId => exact le_run_cached _ c
  | label u => exact le_run_cached _ c
  | methodNames m => exact le_run_cached _ c
  | clear => exact absurd rfl h

theorem le_storeAfter_cached (types : List DeclaredType) (c : NameCache) :
    c ≤ cached.storeAfter types c := by
  induction types generalizing c with
  | nil => exact le_refl c
  | cons t types ih => exact (le_cached t c).trans (ih _)

/-- All types that were asked for have a name in the end. -/
theorem exists_find?_storeAfter_cached {types : List DeclaredType} (ht : t ∈ types)
    (c : NameCache) : ∃ name, (cached.storeAfter types c).find? t.binaryName = some name := by
  induction types generalizing c with
  | nil => cases ht
  | cons u types ih =>
    rw [Supplier.storeAfter_cons]
    rcases List.mem_cons.mp ht with rfl | ht
    · -- the name is kept at once, and stays while the other types are asked for
      exact ⟨_, le_storeAfter_cached types _ _ _ (find?_cached t c)⟩
    · exact ih ht _

/-- **Every request leaves the kept names as they are.** -/
theorem Request.le_answer {o : NamingOptions} (h : o.cacheTypeNames = true) (q : Request)
    (c : NameCache) : c ≤ (q.answer o c).store := by
  have hsupplier : o.supplier = cached := if_pos h
  rw [Request.store_answer, hsupplier]
  exact le_storeAfter_cached q.wanted c

/-- Steps that each leave the kept names as they are do so together. -/
theorem Run.le_mapM {ι β : Type} {f : ι → Run NameCache β} {steps : List ι}
    (h : ∀ step ∈ steps, ∀ c, c ≤ (f step c).store) (c : NameCache) :
    c ≤ (steps.mapM f c).store := by
  exact Run.invariant_mapM (c ≤ ·) (fun step hstep c' hc' => hc'.trans (h step hstep c'))
    (le_refl c)

/-! ### One question twice -/

/-- A name that was given for a type is given again for every type of its binary name, and the
cache is left alone. -/
theorem cached_of_le (hkey : t.binaryName = u.binaryName) (h : (cached t c).store ≤ c') :
    (cached u c').value = (cached t c).value ∧ (cached u c').store = c' :=
  cached_of_find?_eq_some (hkey ▸ h _ _ (find?_cached t c))

/-- **What came out of a computation comes out of every one alike**, at any later time before the
cache is cleared, and then nothing is added to the cache. -/
theorem Naming.Alike.run_cached {α : Type} {x y : Naming α} (halike : x.Alike y)
    (h : (x.run cached c).store ≤ c') :
    (y.run cached c').value = (x.run cached c).value ∧ (y.run cached c').store = c' := by
  induction halike generalizing c with
  | done value => exact ⟨rfl, rfl⟩
  | fail error => exact ⟨rfl, rfl⟩
  | @ask t u next next' hkey _ ih =>
    rw [run_ask, Run.bind_apply] at h
    -- the answer was kept before the rest of the computation began, so it is there in the end
    have hrest := le_run_cached (next (cached t c).value) (cached t c).store
    obtain ⟨hvalue, hstore⟩ := cached_of_le hkey (hrest.trans h)
    rw [run_ask, run_ask, Run.bind_apply, Run.bind_apply, hvalue, hstore]
    exact ih _ h
  | note event _ ih => exact ih h

/-- **Questions that a cache cannot tell apart.** -/
inductive Question.Alike : Question → Question → Prop where
  | typeName {t u : DeclaredType} (h : t.binaryName = u.binaryName) :
      Alike (.typeName t) (.typeName u)
  | computedName {t u : DeclaredType} (hlevel : t.declaration = u.declaration)
      (henclosing : t.enclosing?.map DeclaredType.binaryName =
        u.enclosing?.map DeclaredType.binaryName) : Alike (.computedName t) (.computedName u)
  | useName {u v : TypeUse} (h : u.outline = v.outline) (rootAsId : Bool) :
      Alike (.useName u rootAsId) (.useName v rootAsId)
  | label {u v : TypeUse} (h : u.outline = v.outline) : Alike (.label u) (.label v)
  | methodNames {m m' : Method} (h : m.Alike m') : Alike (.methodNames m) (.methodNames m')
  | clear : Alike .clear .clear

/-- **Requests that a cache cannot tell apart.** -/
inductive Request.Alike : Request → Request → Prop where
  | typeName {t u : DeclaredType} (h : t.binaryName = u.binaryName) :
      Alike (.typeName t) (.typeName u)
  | typeMarker {t u : DeclaredType} (h : t.binaryName = u.binaryName) :
      Alike (.typeMarker t) (.typeMarker u)
  | useName {u v : TypeUse} (h : u.outline = v.outline) (rootAsId : Bool) :
      Alike (.useName u rootAsId) (.useName v rootAsId)
  | methodNames {m m' : Method} (h : m.Alike m') : Alike (.methodNames m) (.methodNames m')
  | methodMarkers {m m' : Method} (h : m.Alike m') : Alike (.methodMarkers m) (.methodMarkers m')
  | fileMarker : Alike .fileMarker .fileMarker

theorem Request.Alike.refl (q : Request) : q.Alike q := by
  cases q with
  | typeName t => exact .typeName rfl
  | typeMarker t => exact .typeMarker rfl
  | useName u rootAsId => exact .useName rfl rootAsId
  | methodNames m => exact .methodNames ⟨rfl, rfl, rfl, rfl, rfl⟩
  | methodMarkers m => exact .methodMarkers ⟨rfl, rfl, rfl, rfl, rfl⟩
  | fileMarker => exact .fileMarker

/-- A level that was worked out is worked out the same again. -/
theorem compute_cached_of_le (hlevel : t.declaration = u.declaration)
    (henclosing : t.enclosing?.map DeclaredType.binaryName =
      u.enclosing?.map DeclaredType.binaryName)
    (h : (cached.compute t c).store ≤ c') :
    (cached.compute u c').value = (cached.compute t c).value := by
  rcases t with d | ⟨d, e⟩ <;> rcases u with d' | ⟨d', e'⟩
  · obtain rfl : d = d' := hlevel
    have hsettled : (DeclaredType.topLevel d).IsSettled := Or.inr rfl
    rw [(cached.compute_of_isSettled hsettled c).1, (cached.compute_of_isSettled hsettled c').1]
  · cases henclosing
  · cases henclosing
  · obtain rfl : d = d' := hlevel
    by_cases hfixed : d.fixedName? = none
    · -- the name is formed from that of the type around, which is the same in both
      have hkey : e.binaryName = e'.binaryName := Option.some.inj henclosing
      rw [(cached.compute_nested hfixed e c).2] at h
      rw [(cached.compute_nested hfixed e c).1, (cached.compute_nested hfixed e' c').1,
        (cached_of_le hkey h).1]
    · have hsettled : ∀ e, (DeclaredType.nested d e).IsSettled := fun _ => Or.inl hfixed
      obtain ⟨fixed, hsome⟩ := Option.ne_none_iff_exists'.mp hfixed
      rw [(cached.compute_of_isSettled (hsettled e) c).1,
        (cached.compute_of_isSettled (hsettled e') c').1, DeclaredType.name, DeclaredType.name,
        hsome, Option.getD_some, Option.getD_some]

/-- A question that was answered is answered the same again. -/
theorem Question.Alike.put_eq {q q' : Question} (halike : q.Alike q')
    (h : (q.put cached c).store ≤ c') : (q'.put cached c').value = (q.put cached c).value := by
  cases halike with
  | typeName hkey => exact congrArg Answer.name (cached_of_le hkey h).1
  | computedName hlevel henclosing =>
    exact congrArg Answer.name (compute_cached_of_le hlevel henclosing h)
  | useName hu rootAsId =>
    exact congrArg Answer.useName ((TypeUse.name_alike hu rootAsId).run_cached h).1
  | label hu => exact congrArg Answer.useName ((TypeUse.label_alike hu).run_cached h).1
  | methodNames hm => exact congrArg Answer.methodNames ((Method.names_alike hm).run_cached h).1
  | clear => rfl

/-- A request that was answered is answered the same again. -/
theorem Request.Alike.answer_eq {o : NamingOptions} (ho : o.cacheTypeNames = true)
    {q q' : Request} (halike : q.Alike q') (h : (q.answer o c).store ≤ c') :
    (q'.answer o c').value = (q.answer o c).value := by
  have hsupplier : o.supplier = cached := if_pos ho
  cases halike with
  | typeName hkey =>
    simp only [answer, hsupplier] at h ⊢
    exact congrArg Reply.text (cached_of_le hkey h).1
  | typeMarker hkey =>
    simp only [answer, hsupplier] at h ⊢
    exact congrArg (fun name => Reply.marker { name }) (cached_of_le hkey h).1
  | useName hu rootAsId =>
    simp only [answer, hsupplier] at h ⊢
    exact congrArg Reply.useName ((TypeUse.name_alike hu rootAsId).run_cached h).1
  | @methodNames m m' hm =>
    have hstore : (m.names.run cached c).store ≤ c' := by
      rw [← hsupplier, ← (o.methodNames_apply m c).2]
      exact h
    have hvalue := ((Method.names_alike hm).run_cached hstore).1
    rw [← hsupplier, ← (o.methodNames_apply m c).1, ← (o.methodNames_apply m' c').1] at hvalue
    exact congrArg Reply.methodNames hvalue
  | @methodMarkers m m' hm =>
    have hstore : (m.names.run cached c).store ≤ c' := by
      rw [← hsupplier, ← (o.methodMarkers_apply m c).2]
      exact h
    have hvalue := ((Method.names_alike hm).run_cached hstore).1
    have hmarkers : (o.methodMarkers m' c').value = (o.methodMarkers m c).value := by
      rw [(o.methodMarkers_apply m' c').1, (o.methodMarkers_apply m c).1, hsupplier, hvalue]
    exact congrArg Reply.methodMarkers hmarkers
  | fileMarker => rfl

/-! ### Two steps of a session -/

section Steps

variable {ι β : Type} {f : ι → Run NameCache β} {steps : List ι} {i j : Nat} {step later : ι}

/-- The steps up to a later one, cut at an earlier one. -/
theorem take_eq_append_cons (hij : i < j) (hi : steps[i]? = some step) :
    steps.take j = steps.take i ++ step :: (steps.take j).drop (i + 1) := by
  obtain ⟨hlength, rfl⟩ := List.getElem?_eq_some_iff.mp hi
  have hlt : i < (steps.take j).length := by
    rw [List.length_take]
    omega
  calc steps.take j = (steps.take j).take i ++ (steps.take j).drop i :=
        (List.take_append_drop i _).symm
    _ = steps.take i ++ steps[i] :: (steps.take j).drop (i + 1) := by
        rw [List.take_take, Nat.min_eq_left hij.le, List.drop_eq_getElem_cons hlt,
          List.getElem_take]

/-- **A later step comes to what an earlier one came to**, if it does so from every cache above the
one that the earlier step left, and if the steps in between leave the kept names as they are. -/
theorem Run.getElem?_mapM_eq (hij : i < j) (hi : steps[i]? = some step)
    (hj : steps[j]? = some later)
    (heq : ∀ c c', (f step c).store ≤ c' → (f later c').value = (f step c).value)
    (hkeep : ∀ between ∈ (steps.take j).drop (i + 1), ∀ c, c ≤ (f between c).store)
    (c : NameCache) : (steps.mapM f c).value[j]? = (steps.mapM f c).value[i]? := by
  -- between the two there is what the earlier step left, and then the steps in between
  have hle : (f step ((steps.take i).mapM f c).store).store ≤ ((steps.take j).mapM f c).store := by
    rw [take_eq_append_cons hij hi, store_mapM_append, store_mapM f (_ :: _), List.foldl_cons,
      ← store_mapM]
    exact Run.le_mapM hkeep _
  rw [getElem?_value_mapM, getElem?_value_mapM, hi, hj, Option.map_some, Option.map_some,
    heq _ _ hle]

end Steps

/-! ### What a kept name goes into -/

/-- **All names that are formed from the name of a type are formed from the given one**: the name
of the type and those of uses and labels over it, and the names of types nested in it where they are
worked out. -/
structure NameCache.NamesBy (c : NameCache) (e : DeclaredType) (name : String) : Prop where
  own : (cached e c).value = name
  use : ∀ (u : TypeUse) (rootAsId : Bool), u.leaf = .declared e →
    ((u.name rootAsId).run cached c).value = (u.name rootAsId).eval fun _ => name
  label : ∀ u : TypeUse, u.leaf = .declared e →
    (u.label.run cached c).value = u.label.eval fun _ => name
  computed : ∀ d : Declaration, ¬d.IsNamed →
    (cached.compute (.nested d e) c).value = d.nameInside name
  nested : ∀ d : Declaration, ¬d.IsNamed → c.find? d.binaryName = none →
    (cached (.nested d e) c).value = d.nameInside name

/-- A computation that asks for one kept type only is worked out with its name. -/
theorem run_cached_of_kept {α : Type} {x : Naming α} {u : TypeUse} {rootAsId : Bool}
    (hx : x.Asks (u.wanted rootAsId)) (hu : u.leaf = .declared e)
    (h : c.find? e.binaryName = some name) :
    (x.run cached c).value = x.eval fun _ => name := by
  have htypes : u.types = [e] := by rw [TypeUse.types, hu]
  have hkept : ∀ t ∈ u.wanted rootAsId, ∀ c', c' = c →
      (cached t c').value = name ∧ (cached t c').store = c := by
    intro t ht c' hc'
    have hte := u.wanted_subset rootAsId ht
    rw [htypes] at hte
    obtain rfl : t = e := List.mem_singleton.mp hte
    rw [hc']
    exact cached_of_find?_eq_some h
  exact (hx.run_eq_eval hkept rfl).1

/-- **A kept name goes into all names that are formed from it.** -/
theorem NameCache.namesBy_of_find? (h : c.find? e.binaryName = some name) : c.NamesBy e name := by
  obtain ⟨hvalue, hstore⟩ := cached_of_find?_eq_some h
  refine ⟨hvalue, ?_, ?_, ?_, ?_⟩
  · intro u rootAsId hu
    exact run_cached_of_kept (u.name_asks rootAsId) hu h
  · intro u hu
    exact run_cached_of_kept u.label_asks hu h
  · intro d hnamed
    rw [(cached.compute_nested (Declaration.fixedName?_eq_none_iff.mpr hnamed) e c).1, hvalue]
  · -- the type around is found at once, so it cannot take the key of the nested one
    intro d hnamed hnone
    obtain ⟨hname, hsame⟩ :=
      cached.compute_nested (Declaration.fixedName?_eq_none_iff.mpr hnamed) e c
    have hnew : c.find? (DeclaredType.nested d e).binaryName = none := hnone
    rw [(cached_of_find?_eq_none hnew).1, hsame, hname, hstore, hvalue, hnew, Option.getD_none]

/-- **A name that was kept on the way out is the answer**, and not the name that is worked out from
the type around. -/
theorem cached_of_taken {stored : String} (hnamed : ¬d.IsNamed)
    (hnone : c.find? d.binaryName = none)
    (h : (cached e c).store.find? d.binaryName = some stored) :
    (cached (.nested d e) c).value = stored ∧
      (cached.compute (.nested d e) c).value = d.nameInside (cached e c).value := by
  obtain ⟨hname, hstore⟩ :=
    cached.compute_nested (Declaration.fixedName?_eq_none_iff.mpr hnamed) e c
  have hnew : c.find? (DeclaredType.nested d e).binaryName = none := hnone
  have htaken : (cached e c).store.find? (DeclaredType.nested d e).binaryName = some stored := h
  refine ⟨?_, hname⟩
  rw [(cached_of_find?_eq_none hnew).1, hstore, htaken, Option.getD_some]

/-- A type of the binary name of the one around it: the answer is the outer name. -/
example :
    let outer := DeclaredType.ofNames "K" "O"
    let inner : DeclaredType := .nested { binaryName := "K", simpleName := "I" } outer
    (cached inner .empty).value = "O" ∧ (cached.compute inner .empty).value = "O_I" := by
  decide

/-! ### What a caching namer replies -/

namespace Namer

variable {n : Namer}

/-- **A namer replies with the given names wherever its cache holds them**: to every request that
takes only types whose names are held, and to one for a type nested in such a type whose own name
is to be worked out. -/
structure RepliesBy (n : Namer) (names : DeclaredType → String) : Prop where
  held : ∀ q : Request, (∀ t ∈ q.wanted, n.cache.find? t.binaryName = some (names t)) →
    (n.respond q).2.1 = q.replyWith names n.options.exactMethodNames ∧
      (n.respond q).1.cache = n.cache
  nested : ∀ (d : Declaration) (e : DeclaredType), ¬d.IsNamed →
    n.cache.find? d.binaryName = none → n.cache.find? e.binaryName = some (names e) →
    (n.respond (.typeName (.nested d e))).2.1 = .text (d.nameInside (names e))

/-- The name of a type, asked of a caching namer, is the answer of its cache. -/
theorem respond_typeName_of_caches (h : n.options.cacheTypeNames = true) (t : DeclaredType) :
    (n.respond (.typeName t)).2.1 = .text (cached t n.cache).value ∧
      (n.respond (.typeName t)).1.cache = (cached t n.cache).store := by
  have hsupplier : n.options.supplier = cached := if_pos h
  rw [← hsupplier]
  exact ⟨rfl, rfl⟩

/-- **A caching namer replies with the names that its cache holds.** -/
theorem repliesBy_of_caches (h : n.options.cacheTypeNames = true) (names : DeclaredType → String) :
    n.RepliesBy names := by
  have hsupplier : n.options.supplier = cached := if_pos h
  refine ⟨?_, ?_⟩
  · -- every type that is asked for is found, so the cache is the same throughout
    intro q hheld
    have hkept : ∀ t ∈ q.wanted, ∀ c, c = n.cache →
        (n.options.supplier t c).value = names t ∧ (n.options.supplier t c).store = n.cache := by
      rintro t ht c rfl
      rw [hsupplier]
      exact cached_of_find?_eq_some (hheld t ht)
    exact Request.answer_of_names hkept rfl
  · intro d e hnamed hnone hname
    rw [(respond_typeName_of_caches h _).1,
      (NameCache.namesBy_of_find? hname).nested d hnamed hnone]

/-- **Every reply of a caching namer is formed from the names that its cache holds afterwards.** -/
theorem exists_names_of_caches (h : n.options.cacheTypeNames = true) (q : Request) :
    ∃ names : DeclaredType → String,
      (∀ t ∈ q.wanted, (n.respond q).1.cache.find? t.binaryName = some (names t)) ∧
      (n.respond q).2.1 = q.replyWith names n.options.exactMethodNames := by
  have hstore : (n.respond q).1.cache = cached.storeAfter q.wanted n.cache := by
    have hsupplier : n.options.supplier = cached := if_pos h
    rw [← hsupplier]
    exact q.store_answer n.options n.cache
  have hheld : ∀ t ∈ q.wanted, (n.respond q).1.cache.find? t.binaryName =
      some (((n.respond q).1.cache.find? t.binaryName).getD "") := by
    intro t ht
    obtain ⟨name, hname⟩ := exists_find?_storeAfter_cached ht n.cache
    rw [hstore, hname, Option.getD_some]
  -- the request, put again, is answered from the cache alone, and as it was before
  have hagain : ((n.respond q).1.respond q).2.1 = (n.respond q).2.1 :=
    (Request.Alike.refl q).answer_eq h (le_refl _)
  have hnext : (n.respond q).1.options.cacheTypeNames = true := h
  exact ⟨_, hheld, hagain.symm.trans ((repliesBy_of_caches hnext _).held q hheld).1⟩

/-- A name that was kept on the way out is the reply. -/
theorem respond_typeName_of_taken (h : n.options.cacheTypeNames = true) {stored : String}
    (hnamed : ¬d.IsNamed) (hnone : n.cache.find? d.binaryName = none)
    (htaken : (n.respond (.typeName e)).1.cache.find? d.binaryName = some stored) :
    (n.respond (.typeName (.nested d e))).2.1 = .text stored := by
  rw [(respond_typeName_of_caches h e).2] at htaken
  rw [(respond_typeName_of_caches h _).1, (cached_of_taken hnamed hnone htaken).1]

end Namer

/-! ### Whole sessions -/

/-- **Answers stay**, from any cache on and for any types, until the cache is cleared; so do the
replies of a caching namer, which never clears its cache.

* The answer to a look-up is the name that the cache holds for the binary name afterwards, and it
  is held until the cache is cleared. It is the answer to a question for the name as well, and the
  name in the reply of a caching namer to a request for the name or the marker. Every reply of such
  a namer is formed from the names that its cache holds afterwards for the types it took.
* All names that are formed from the name of the type are formed from the one that is held. So are
  all replies of a caching namer to a request that takes only types whose names are held.
* So two questions of a session that the cache cannot tell apart have the same answer, if it is not
  cleared in between, and two such requests always.
* A name that was kept for the binary name while the name was worked out is the answer, and not the
  name that was worked out; of a caching namer it is the reply. -/
theorem cached_answers_stay :
    ((∀ (t : DeclaredType) (c : NameCache),
        (cached t c).store.find? t.binaryName = some (cached t c).value) ∧
      (∀ (t : DeclaredType) (c : NameCache),
        ∃ name, ((Question.typeName t).put cached c).value = .name name ∧
          ((Question.typeName t).put cached c).store.find? t.binaryName = some name) ∧
      (∀ (questions : List Question) (c : NameCache), .clear ∉ questions →
        c ≤ (questions.mapM (Question.put cached) c).store) ∧
      (∀ (c : NameCache) (e : DeclaredType) (name : String),
        c.find? e.binaryName = some name → c.NamesBy e name) ∧
      (∀ (questions : List Question) (c : NameCache) (i j : Nat) (q q' : Question), i < j →
        questions[i]? = some q → questions[j]? = some q' → q.Alike q' →
        .clear ∉ (questions.take j).drop (i + 1) →
        (questions.mapM (Question.put cached) c).value[j]? =
          (questions.mapM (Question.put cached) c).value[i]?) ∧
      ∀ (d : Declaration) (e : DeclaredType) (c : NameCache) (stored : String),
        ¬d.IsNamed → c.find? d.binaryName = none →
        (cached e c).store.find? d.binaryName = some stored →
        (cached (.nested d e) c).value = stored ∧
          (cached.compute (.nested d e) c).value = d.nameInside (cached e c).value) ∧
    ∀ n : Namer, n.options.cacheTypeNames = true →
      (∀ t : DeclaredType,
        (∃ name, (n.respond (.typeName t)).2.1 = .text name ∧
          (n.respond (.typeName t)).1.cache.find? t.binaryName = some name) ∧
        ∃ name, (n.respond (.typeMarker t)).2.1 = .marker { name } ∧
          (n.respond (.typeMarker t)).1.cache.find? t.binaryName = some name) ∧
      (∀ q : Request, ∃ names : DeclaredType → String,
        (∀ t ∈ q.wanted, (n.respond q).1.cache.find? t.binaryName = some (names t)) ∧
        (n.respond q).2.1 = q.replyWith names n.options.exactMethodNames) ∧
      (∀ requests : List Request, n.cache ≤ n.cacheAfter requests) ∧
      (∀ names : DeclaredType → String, n.RepliesBy names) ∧
      (∀ (requests : List Request) (i j : Nat) (q q' : Request), i < j →
        requests[i]? = some q → requests[j]? = some q' → q.Alike q' →
        (n.replies requests)[j]? = (n.replies requests)[i]?) ∧
      ∀ (d : Declaration) (e : DeclaredType) (stored : String),
        ¬d.IsNamed → n.cache.find? d.binaryName = none →
        (n.respond (.typeName e)).1.cache.find? d.binaryName = some stored →
        (n.respond (.typeName (.nested d e))).2.1 = .text stored := by
  have hput : ∀ questions : List Question, .clear ∉ questions →
      ∀ q ∈ questions, ∀ c, c ≤ (q.put cached c).store := by
    intro questions hclear q hq c
    exact q.le_put (fun h => hclear (h ▸ hq)) c
  refine ⟨⟨find?_cached, ?_, ?_, fun c e name h => c.namesBy_of_find? h, ?_,
    fun d e c stored => cached_of_taken⟩, fun n ho => ⟨?_, Namer.exists_names_of_caches ho, ?_,
      Namer.repliesBy_of_caches ho, ?_, fun d e stored => Namer.respond_typeName_of_taken ho⟩⟩
  · intro t c
    exact ⟨(cached t c).value, rfl, find?_cached t c⟩
  · intro questions c hclear
    exact Run.le_mapM (hput questions hclear) c
  · intro questions c i j q q' hij hi hj halike hclear
    exact Run.getElem?_mapM_eq hij hi hj (fun c c' h => halike.put_eq h) (hput _ hclear) c
  · -- the name and the marker are replies formed from the one name that was asked for
    intro t
    obtain ⟨names, hheld, hreply⟩ := Namer.exists_names_of_caches ho (.typeName t)
    obtain ⟨names', hheld', hreply'⟩ := Namer.exists_names_of_caches ho (.typeMarker t)
    exact ⟨⟨names t, hreply, hheld t List.mem_cons_self⟩,
      ⟨names' t, hreply', hheld' t List.mem_cons_self⟩⟩
  · intro requests
    exact Run.le_mapM (fun q _ c => q.le_answer ho c) n.cache
  · intro requests i j q q' hij hi hj halike
    exact Run.getElem?_mapM_eq hij hi hj (fun c c' h => halike.answer_eq ho h)
      (fun q _ c => q.le_answer ho c) n.cache

/-- A caching namer is asked for a type with the binary name of the one around it: the reply is the
outer name, and it stays the reply for both of them. -/
theorem cached_answers_stay_of_shared_key :
    let n : Namer := { options := { cacheTypeNames := true } }
    let outer := DeclaredType.ofNames "K" "O"
    let inner : DeclaredType := .nested { binaryName := "K", simpleName := "I" } outer
    let requests : List Request := [.typeName inner, .typeMarker inner, .typeName outer]
    (n.respond (.typeName inner)).2.1 = .text "O" ∧
      (n.replies requests)[2]? = (n.replies requests)[0]? := by
  intro n outer inner requests
  obtain ⟨-, -, -, -, halike, htaken⟩ := cached_answers_stay.2 n rfl
  have hnamed : ¬Declaration.IsNamed { binaryName := "K", simpleName := "I" } :=
    Declaration.fixedName?_eq_none_iff.mp (by decide)
  exact ⟨htaken _ outer "O" hnamed rfl (by decide),
    halike requests 0 2 (.typeName inner) (.typeName outer) (by decide) rfl rfl (.typeName rfl)⟩

end BridgeNames
