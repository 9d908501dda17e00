import BridgeNames.Namer
import BridgeNames.Proofs.Naming.MethodOutcome
import BridgeNames.Supply.Question

/-!
# Sessions

A session puts requests to a namer, or questions to a supplier, one after the other; what one
leaves in the store the next one finds. Both are the same thing, a list of runs, so what a session
comes to is said for lists of runs: `BridgeNames.Run.mapM_of_invariant` where every step comes to
a value of its own as long as an invariant holds, `BridgeNames.Run.store_mapM` for the store.

What a single request does to the store is settled by the types it asks for
(`BridgeNames.Request.store_answer`), and so is its reply where the supplier answers these types
with fixed names (`BridgeNames.Request.answer_of_names`).
-/

namespace BridgeNames

variable {σ ι β : Type}

/-! ### Lists of runs -/

namespace Run

/-- The store after a list of runs has gone through every one of them. -/
theorem store_mapM (f : ι → Run σ β) (steps : List ι) (s : σ) :
    (steps.mapM f s).store = steps.foldl (fun s step => (f step s).store) s := by
  induction steps generalizing s with
  | nil => rfl
  | cons step steps ih =>
    rw [List.mapM_cons, List.foldl_cons, ← ih]
    rfl

theorem value_mapM_cons (f : ι → Run σ β) (step : ι) (steps : List ι) (s : σ) :
    ((step :: steps).mapM f s).value =
      (f step s).value :: (steps.mapM f (f step s).store).value := by
  rw [List.mapM_cons]
  rfl

/-- A list of runs logs what its first run logs, and then what the others log. -/
theorem events_mapM_cons (f : ι → Run σ β) (step : ι) (steps : List ι) (s : σ) :
    ((step :: steps).mapM f s).events =
      (f step s).events ++ (steps.mapM f (f step s).store).events := by
  rw [List.mapM_cons, Run.bind_apply, Run.bind_apply, Run.pure_apply, List.append_nil]

theorem store_mapM_append (f : ι → Run σ β) (steps more : List ι) (s : σ) :
    ((steps ++ more).mapM f s).store = (more.mapM f (steps.mapM f s).store).store := by
  rw [store_mapM, store_mapM, store_mapM, List.foldl_append]

/-- Each step of a list of runs finds the store that the steps before it leave. -/
theorem getElem?_value_mapM (f : ι → Run σ β) (steps : List ι) (s : σ) (i : Nat) :
    (steps.mapM f s).value[i]? =
      steps[i]?.map fun step => (f step ((steps.take i).mapM f s).store).value := by
  induction steps generalizing s i with
  | nil => rfl
  | cons step steps ih =>
    rw [value_mapM_cons]
    cases i with
    | zero => rfl
    | succ i =>
      rw [List.getElem?_cons_succ, List.getElem?_cons_succ, ih, List.take_succ_cons, store_mapM,
        store_mapM, List.foldl_cons]

/-- **Every step of a list of runs comes to a value of its own**, if each does from every store
that keeps an invariant, and leaves such a store. -/
theorem mapM_of_invariant {Inv : σ → Prop} {f : ι → Run σ β} {g : ι → β} {steps : List ι}
    (h : ∀ step ∈ steps, ∀ s, Inv s → (f step s).value = g step ∧ Inv (f step s).store)
    {s : σ} (hs : Inv s) : (steps.mapM f s).value = steps.map g := by
  induction steps generalizing s with
  | nil => rfl
  | cons step steps ih =>
    obtain ⟨hvalue, hinv⟩ := h step List.mem_cons_self s hs
    rw [value_mapM_cons, List.map_cons, hvalue]
    exact congrArg _ (ih (fun later hlater => h later (List.mem_cons_of_mem _ hlater)) hinv)

/-- What every step of a list of runs keeps, the whole list keeps. -/
theorem invariant_mapM (Inv : σ → Prop) {f : ι → Run σ β} {steps : List ι}
    (h : ∀ step ∈ steps, ∀ s, Inv s → Inv (f step s).store) {s : σ} (hs : Inv s) :
    Inv (steps.mapM f s).store := by
  rw [store_mapM]
  exact List.foldlRecOn steps _ hs fun s hs step hstep => h step hstep s hs

end Run

/-! ### One request -/

namespace NamingOptions

/-- The log has no part in the names of a method. -/
theorem methodNames_apply (o : NamingOptions) (m : Method) (c : NameCache) :
    (o.methodNames m c).value = (m.names.run o.supplier c).value ∧
      (o.methodNames m c).store = (m.names.run o.supplier c).store := by
  rw [methodNames, Run.bind_apply]
  cases hvalue : (m.names.run o.supplier c).value <;> exact ⟨rfl, rfl⟩

/-- The markers of a method are those of its names, and a failure stays what it is. -/
theorem methodMarkers_apply (o : NamingOptions) (m : Method) (c : NameCache) :
    (o.methodMarkers m c).value =
        (m.names.run o.supplier c).value.map (·.map (·.markers o.exactMethodNames)) ∧
      (o.methodMarkers m c).store = (m.names.run o.supplier c).store := by
  obtain ⟨hvalue, hstore⟩ := o.methodNames_apply m c
  rw [methodMarkers, Run.bind_apply, hvalue, hstore]
  cases (m.names.run o.supplier c).value <;> exact ⟨rfl, rfl⟩

end NamingOptions

namespace Request

/-- **The types that a request takes.** -/
def wanted : Request → List DeclaredType
  | typeName t => [t]
  | typeMarker t => [t]
  | useName u rootAsId => u.wanted rootAsId
  | methodNames m => m.wanted
  | methodMarkers m => m.wanted
  | fileMarker => []

/-- **A request leaves the store that asking for the types it takes leaves**, also where it
fails. -/
theorem store_answer (o : NamingOptions) (q : Request) (c : NameCache) :
    (q.answer o c).store = o.supplier.storeAfter q.wanted c := by
  cases q with
  | typeName t => rfl
  | typeMarker t => rfl
  | useName u rootAsId => exact (u.name_asks rootAsId _ o.supplier c).1
  | methodNames m => exact (o.methodNames_apply m c).2.trans (m.names_asks _ o.supplier c).1
  | methodMarkers m => exact (o.methodMarkers_apply m c).2.trans (m.names_asks _ o.supplier c).1
  | fileMarker => rfl

/-- The reply to a request where types have fixed names. -/
def replyWith (names : DeclaredType → String) (exact : Bool) : Request → Reply
  | typeName t => .text (names t)
  | typeMarker t => .marker { name := names t }
  | useName u rootAsId => .useName ((u.name rootAsId).eval names)
  | methodNames m => .methodNames (m.names.eval names)
  | methodMarkers m => .methodMarkers ((m.names.eval names).map (·.map (·.markers exact)))
  | fileMarker => .text fileMarkerText

/-- **The reply is the one with fixed names**, if the supplier answers so for the types that the
request takes, from every store that keeps an invariant. -/
theorem answer_of_names {names : DeclaredType → String} {Inv : NameCache → Prop}
    {o : NamingOptions} {q : Request}
    (h : ∀ t ∈ q.wanted, ∀ c, Inv c →
      (o.supplier t c).value = names t ∧ Inv (o.supplier t c).store)
    {c : NameCache} (hc : Inv c) :
    (q.answer o c).value = q.replyWith names o.exactMethodNames ∧ Inv (q.answer o c).store := by
  -- what a use or a method asks for is what the request takes, so its run is an evaluation
  cases q with
  | typeName t =>
    obtain ⟨hvalue, hinv⟩ := h t List.mem_cons_self c hc
    exact ⟨congrArg Reply.text hvalue, hinv⟩
  | typeMarker t =>
    obtain ⟨hvalue, hinv⟩ := h t List.mem_cons_self c hc
    exact ⟨congrArg (fun name => Reply.marker { name }) hvalue, hinv⟩
  | useName u rootAsId =>
    obtain ⟨hvalue, hinv⟩ := (u.name_asks rootAsId).run_eq_eval h hc
    exact ⟨congrArg Reply.useName hvalue, hinv⟩
  | methodNames m =>
    obtain ⟨hvalue, hinv⟩ := m.names_asks.run_eq_eval h hc
    obtain ⟨hsame, hstore⟩ := o.methodNames_apply m c
    rw [hvalue] at hsame
    exact ⟨congrArg Reply.methodNames hsame, hstore ▸ hinv⟩
  | methodMarkers m =>
    obtain ⟨hvalue, hinv⟩ := m.names_asks.run_eq_eval h hc
    obtain ⟨hsame, hstore⟩ := o.methodMarkers_apply m c
    rw [hvalue] at hsame
    exact ⟨congrArg Reply.methodMarkers hsame, hstore ▸ hinv⟩
  | fileMarker => exact ⟨rfl, hc⟩

end Request

/-! ### Sessions with a namer and with a supplier -/

/-- The replies of a namer to requests, one after the other. -/
def Namer.replies (n : Namer) (requests : List Request) : List Reply :=
  (requests.mapM (Request.answer n.options) n.cache).value

@[simp] theorem Namer.replies_nil (n : Namer) : n.replies [] = [] := rfl

/-- Each request is put to the namer that the one before it has left. -/
@[simp] theorem Namer.replies_cons (n : Namer) (q : Request) (requests : List Request) :
    n.replies (q :: requests) = (n.respond q).2.1 :: (n.respond q).1.replies requests :=
  Run.value_mapM_cons _ _ _ _

/-- The store of a namer after requests, one after the other. -/
def Namer.cacheAfter (n : Namer) (requests : List Request) : NameCache :=
  (requests.mapM (Request.answer n.options) n.cache).store

@[simp] theorem Namer.cacheAfter_nil (n : Namer) : n.cacheAfter [] = n.cache := rfl

/-- The first of the requests is put to the namer itself, and the others to the namer that it has
left. -/
@[simp] theorem Namer.cacheAfter_cons (n : Namer) (q : Request) (requests : List Request) :
    n.cacheAfter (q :: requests) = (n.respond q).1.cacheAfter requests := by
  rw [cacheAfter, Run.store_mapM, List.foldl_cons, ← Run.store_mapM]
  rfl

/-- What a namer logs about requests, one after the other. -/
def Namer.log (n : Namer) (requests : List Request) : List Event :=
  (requests.mapM (Request.answer n.options) n.cache).events

@[simp] theorem Namer.log_nil (n : Namer) : n.log [] = [] := rfl

/-- The log goes on with what is logged about each request, by the namer that the one before it has
left. -/
@[simp] theorem Namer.log_cons (n : Namer) (q : Request) (requests : List Request) :
    n.log (q :: requests) = (n.respond q).2.2 ++ (n.respond q).1.log requests :=
  Run.events_mapM_cons _ _ _ _

/-- **A session leaves the store that asking for all types it takes leaves.** -/
theorem Namer.cacheAfter_eq (n : Namer) (requests : List Request) :
    n.cacheAfter requests =
      n.options.supplier.storeAfter (requests.flatMap Request.wanted) n.cache := by
  induction requests generalizing n with
  | nil => rfl
  | cons q requests ih =>
    have hfirst : (n.respond q).1.cache = n.options.supplier.storeAfter q.wanted n.cache :=
      q.store_answer n.options n.cache
    rw [cacheAfter_cons, ih, hfirst, List.flatMap_cons, Supplier.storeAfter_append]
    rfl

/-- The answers of a supplier to questions, one after the other, from an empty store on. -/
def Supplier.answers (supplier : Supplier NameCache) (questions : List Question) : List Answer :=
  (questions.mapM (Question.put supplier) .empty).value

end BridgeNames
