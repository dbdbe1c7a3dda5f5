import Ghpulse.Cache.Threads
import Ghpulse.Library.ReprText

/-!
# Isolation by arguments

The key of a call is the name of its endpoint, a colon and the `repr` of its sorted arguments. Every
stored value is stored under the key of the call that computed it, whichever path stored it, so a
value that a request finds under its own key was computed by a call with the same key, and the key
determines the endpoint and the arguments.

A key is a text, so it determines the call only if the `repr` of the arguments can be read back: quotes in
a value are escaped, which is why no value can look like the end of one argument and the start of the next
(`Library.ReprText`). An integer beyond the digit limit has no text; a request with one raises before it
looks anything up, and is served nothing.

Reference: `backend/cache.py` (`cache_response`, `_schedule_refresh`).
-/

open Python

namespace Ghpulse.Cache

/-! ## Values belong to their keys

The invariant needs one fact about each step: a value moves between a thread and the item under the key of
that thread's call, never elsewhere. A job starts without a value and reads its own.
-/

section Keys

variable {Call κ : Type}

/-- The value that a thread holds. -/
def Thread.value? : Thread Call → Option (Body Call)
  | .bypassRead _ body | .computed _ body | .refreshed _ _ body => some body
  | .schedule _ value | .token _ value | .submit _ value _ | .refused _ value => some value
  | .unlock _ result | .done _ result => result
  | _ => none

/-- A value that a thread holds was computed under the key of the call that the thread serves. -/
def Thread.Owns (key : Call → κ) (th : Thread Call) : Prop :=
  ∀ call ∈ th.call?, ∀ value ∈ th.value?, key value.call = key call

/-- Every value belongs to the key it is stored under or requested by. -/
structure Isolated (key : Call → κ) (s : State Call κ) : Prop where
  item : ∀ k i, s.cache.items k = some i → key i.value.call = k
  thread : ∀ t, (s.threads t).Owns key

/-- An empty cache is isolated. -/
theorem isolated_init (key : Call → κ) (ttlSeconds now : ℚ) :
    Isolated key (State.init ttlSeconds now) where
  item := by simp [State.init, TTLCache.new]
  thread := fun _ _ h => by cases h

namespace Isolated

variable {key : Call → κ} {s : State Call κ}

/-- Moving a thread to a place that holds its own values keeps the cache isolated. -/
theorem setThread (h : Isolated key s) {t : ℕ} {th : Thread Call} (hth : th.Owns key) :
    Isolated key (s.setThread t th) where
  item := h.item
  thread := by
    intro t'
    simp only [State.setThread, Function.update_apply]
    split
    · exact hth
    · exact h.thread t'

/-- Only the items and the threads matter. -/
theorem congr (h : Isolated key s) {s' : State Call κ} (hthreads : s'.threads = s.threads)
    (hitem : ∀ k i, s'.cache.items k = some i → key i.value.call = k) : Isolated key s' where
  item := hitem
  thread := fun t => hthreads ▸ h.thread t

/-- The registry, the clock and the worker pool hold no values. -/
theorem registry (h : Isolated key s) (now : ℚ) (refreshing : κ → Bool) (keyLock : κ → Option ℕ)
    (accepting : Bool) :
    Isolated key { s with
      now := now, refreshing := refreshing, keyLock := keyLock, accepting := accepting } :=
  h.congr rfl h.item

/-- A thread that goes on to serve the same call may hold what it held, or nothing. -/
theorem moved (h : Isolated key s) {t : ℕ} {th th' : Thread Call} (hth : s.threads t = th)
    (hcall : th'.call? = th.call?) (hvalue : th'.value? = th.value? ∨ th'.value? = none) :
    Isolated key (s.setThread t th') := by
  apply h.setThread
  intro call hc value hv
  rcases hvalue with hsame | hnone
  · exact h.thread t call (hth ▸ hcall ▸ hc) value (hth ▸ hsame ▸ hv)
  · rw [hnone] at hv
    cases hv

/-- A thread that has read the database holds the value of its own call. -/
theorem read (h : Isolated key s) {t : ℕ} {call : Call} {th : Thread Call}
    (hcall : th.call? = some call) (hvalue : th.value? = some ⟨call, s.committed⟩) :
    Isolated key (s.setThread t th) := by
  apply h.setThread
  intro c hc v hv
  rw [hcall] at hc
  rw [hvalue] at hv
  cases hc
  cases hv
  rfl

variable [DecidableEq κ]

/-- A hit belongs to the key it was looked up under. -/
theorem hit (h : Isolated key s) {k : κ} {value : Body Call} {stale : Bool}
    (hhit : (s.cache.getEntry s.now k).1 = some (value, stale)) : key value.call = k := by
  obtain ⟨i, hi, rfl, -⟩ := TTLCache.item_of_getEntry hhit
  exact h.item k i hi

/-- Looking up keeps it isolated. -/
theorem getEntry (h : Isolated key s) (k : κ) :
    Isolated key { s with cache := (s.cache.getEntry s.now k).2 } :=
  h.congr rfl fun k i hi => h.item k i (TTLCache.items_getEntry hi)

/-- So does storing a value under the key of its call. -/
theorem put (h : Isolated key s) {call : Call} {body : Body Call} (hbody : key body.call = key call) :
    Isolated key { s with cache := s.cache.put s.now (key call) body } := by
  refine h.congr rfl fun k i hi => ?_
  simp only [TTLCache.put, Function.update_apply] at hi
  split at hi
  · next hk =>
    cases hi
    exact hbody.trans hk.symm
  · exact h.item k i hi

/-- What is found by the first look-up belongs to the call. -/
theorem afterLookup (h : Isolated key s) (call : Call) :
    (afterLookup call (s.cache.getEntry s.now (key call)).1).Owns key := by
  rcases hhit : (s.cache.getEntry s.now (key call)).1 with _ | ⟨value, _ | _⟩
  · exact fun _ _ _ hv => by cases hv
  all_goals
    intro c hc v hv
    cases hc
    cases hv
    exact h.hit hhit

/-- So does what is found by the second one. -/
theorem afterRecheck (h : Isolated key s) (call : Call) :
    (afterRecheck call (s.cache.getEntry s.now (key call)).1).Owns key := by
  rcases hhit : (s.cache.getEntry s.now (key call)).1 with _ | ⟨value, stale⟩
  · exact fun _ _ _ hv => by cases hv
  · intro c hc v hv
    cases hc
    cases hv
    exact h.hit hhit

/-- Every step keeps every value with its key. -/
theorem step {fresh : Call → Bool} {s' : State Call κ} {a : Action Call} (h : Isolated key s)
    (hstep : step key fresh s a = some s') : Isolated key s' := by
  cases Step.of_step hstep with
  | request hth =>
    refine h.setThread fun c hc v hv => ?_
    split at hv <;> cases hv
  | getEntry hth => exact (h.getEntry _).setThread (h.afterLookup _)
  | recheck hth => exact (h.getEntry _).setThread (h.afterRecheck _)
  | registered hth => exact h.moved hth rfl (Or.inl rfl)
  | register hth => exact (h.registry s.now _ s.keyLock s.accepting).moved hth rfl (Or.inl rfl)
  | readGeneration hth => exact h.moved hth rfl (Or.inl rfl)
  | @submit t j call value generation hth hidle haccept =>
    have hdone : Isolated key (s.setThread t (.done call (some value))) :=
      h.moved hth rfl (Or.inl rfl)
    -- the job holds no value yet
    apply hdone.setThread
    intro _ _ _ hv
    cases hv
  | refuse hth => exact h.moved hth rfl (Or.inl rfl)
  | unregisterRefused hth =>
    exact (h.registry s.now _ s.keyLock s.accepting).moved hth rfl (Or.inl rfl)
  | unregister hth => exact (h.registry s.now _ s.keyLock s.accepting).moved hth rfl (Or.inr rfl)
  | lock hth => exact (h.registry s.now s.refreshing _ s.accepting).moved hth rfl (Or.inr rfl)
  | start hth => exact h.moved hth rfl (Or.inr rfl)
  | readBypass => exact h.read rfl rfl
  | readCompute => exact h.read rfl rfl
  | readRefresh => exact h.read rfl rfl
  | raiseBypass hth =>
    rcases hth with hth | ⟨b, hth⟩
    · exact h.moved hth rfl (Or.inr rfl)
    · exact h.moved hth rfl (Or.inr rfl)
  | raiseCompute hth =>
    rcases hth with hth | ⟨b, hth⟩
    · exact h.moved hth rfl (Or.inr rfl)
    · exact h.moved hth rfl (Or.inr rfl)
  | raiseRefresh hth =>
    rcases hth with hth | ⟨b, hth⟩
    · exact h.moved hth rfl (Or.inr rfl)
    · exact h.moved hth rfl (Or.inr rfl)
  | put hth =>
    have hown := h.thread _ _ (by rw [hth]; rfl) _ (by rw [hth]; rfl)
    exact (h.put hown).moved hth rfl (Or.inl rfl)
  | publish hth =>
    have hown := h.thread _ _ (by rw [hth]; rfl) _ (by rw [hth]; rfl)
    refine Isolated.moved ?_ hth rfl (Or.inr rfl)
    unfold TTLCache.putIfGeneration
    split
    · exact h
    · exact h.put hown
  | unlock hth => exact (h.registry s.now s.refreshing _ s.accepting).moved hth rfl (Or.inl rfl)
  | finish hth => exact h.moved hth rfl (Or.inl rfl)
  | setClock => exact h.registry _ s.refreshing s.keyLock s.accepting
  | commit => exact h.congr rfl h.item
  | invalidate => exact h.congr rfl h.item
  | clear => exact h.congr rfl fun _ _ hi => by cases hi
  | startWorkers => exact h.registry s.now s.refreshing s.keyLock true
  | stopWorkers => exact h.registry s.now s.refreshing s.keyLock false

end Isolated

end Keys

/-! ## The key of a call

The keyword arguments are sorted by name, so the order in which the framework passes them does not matter.
`visibility` is one of them, set by the wrapper of an endpoint from the viewer; this is what separates a
guest from a viewer who is signed in.
-/

/-- A call of an endpoint; the keyword arguments are a dictionary. -/
structure KeywordCall (Endpoint : Type) where
  endpoint : Endpoint
  kwargs : List (Str × Scalar)
  names_nodup : (kwargs.map Prod.fst).Nodup

namespace KeywordCall

variable {Endpoint : Type} (printable : CodePoint → Bool) (qualname : Endpoint → Str)

/-- `kwargs.get(name)`. -/
def get (call : KeywordCall Endpoint) (name : Str) : Scalar :=
  ((call.kwargs.find? fun item => item.1 = name).map Prod.snd).getD .none

/-- `bool(kwargs.get("fresh"))`. -/
def fresh (call : KeywordCall Endpoint) : Bool :=
  match call.get (lit "fresh") with
  | .none => false
  | .int z => decide (z ≠ 0)
  | .str s => decide (s ≠ [])

/-- `sorted(kwargs.items())`: no two items have the same name. -/
def sortedItems (call : KeywordCall Endpoint) : List (Str × Scalar) :=
  call.kwargs.mergeSort fun a b => decide (a.1 ≤ b.1)

/-- `fn.__qualname__ + ":" + repr(sorted(kwargs.items()))`. -/
def key (call : KeywordCall Endpoint) : Str :=
  qualname call.endpoint ++ cp ':' :: reprList printable call.sortedItems

/-- The key of a call can be computed: each argument has a text. -/
def HasKey (call : KeywordCall Endpoint) : Prop := ∀ item ∈ call.kwargs, item.2.HasRepr

instance (call : KeywordCall Endpoint) : Decidable call.HasKey :=
  inferInstanceAs (Decidable (∀ item ∈ call.kwargs, item.2.HasRepr))

/-- The same endpoint is called with the same dictionary of arguments. -/
def Same (a b : KeywordCall Endpoint) : Prop :=
  a.endpoint = b.endpoint ∧ a.kwargs.Perm b.kwargs

variable {qualname} in
/-- The key determines the endpoint and the arguments. -/
theorem same_of_key_eq (hqualname : Function.Injective qualname) {a b : KeywordCall Endpoint}
    (h : a.key printable qualname = b.key printable qualname) : a.Same b := by
  obtain ⟨hname, hitems⟩ := append_reprList_injective printable h
  refine ⟨hqualname hname, ?_⟩
  have ha : a.sortedItems.Perm a.kwargs := List.mergeSort_perm _ _
  have hb : b.sortedItems.Perm b.kwargs := List.mergeSort_perm _ _
  rw [hitems] at ha
  exact ha.symm.trans hb

end KeywordCall

/-! ## Requests

The threads of the cache with calls of this shape.
-/

section Requests

variable {Endpoint : Type} (printable : CodePoint → Bool) (qualname : Endpoint → Str)

/-- A step of the threads; a request whose key cannot be computed raises before it looks it up. -/
def serve (s : State (KeywordCall Endpoint) Str) (a : Action (KeywordCall Endpoint)) :
    Option (State (KeywordCall Endpoint) Str) :=
  match a with
  | .request t call =>
    if call.fresh = false ∧ ¬ call.HasKey then
      match s.threads t with
      | .idle => some (s.setThread t (.done call none))
      | _ => none
    else step (KeywordCall.key printable qualname) KeywordCall.fresh s a
  | _ => step (KeywordCall.key printable qualname) KeywordCall.fresh s a

variable {printable qualname}

/-- A step of the threads, or a request that raises. -/
theorem serve_cases {s s' : State (KeywordCall Endpoint) Str} {a : Action (KeywordCall Endpoint)}
    (h : serve printable qualname s a = some s') :
    step (KeywordCall.key printable qualname) KeywordCall.fresh s a = some s' ∨
      ∃ t call, a = .request t call ∧ s.threads t = .idle ∧
        s' = s.setThread t (.done call none) := by
  unfold serve at h
  split at h
  · next t call =>
    split at h
    · split at h <;> cases h
      exact Or.inr ⟨t, call, rfl, ‹_›, rfl⟩
    · exact Or.inl h
  · exact Or.inl h

/-- Every step keeps the cache isolated. -/
theorem Isolated.serve {s s' : State (KeywordCall Endpoint) Str} {a : Action (KeywordCall Endpoint)}
    (h : Isolated (KeywordCall.key printable qualname) s)
    (hstep : serve printable qualname s a = some s') :
    Isolated (KeywordCall.key printable qualname) s' := by
  rcases serve_cases hstep with hstep | ⟨t, call, -, -, rfl⟩
  · exact h.step hstep
  · apply h.setThread
    intro _ _ _ hv
    cases hv

/-- A thread serves the same call throughout. -/
theorem call?_serve {s s' : State (KeywordCall Endpoint) Str} {a : Action (KeywordCall Endpoint)}
    {t : ℕ} {call : KeywordCall Endpoint} (hstep : serve printable qualname s a = some s')
    (h : (s.threads t).call? = some call) : (s'.threads t).call? = some call := by
  rcases serve_cases hstep with hstep | ⟨t', call', -, hidle, rfl⟩
  · exact call?_step hstep h
  · have hne : t ≠ t' := by
      rintro rfl
      rw [hidle] at h
      cases h
    rwa [State.threads_setThread_of_ne s hne]

/-- A thread that is requested serves the call. -/
theorem call?_serve_request {s s' : State (KeywordCall Endpoint) Str} {t : ℕ}
    {call : KeywordCall Endpoint} (hstep : serve printable qualname s (.request t call) = some s') :
    (s'.threads t).call? = some call := by
  rcases serve_cases hstep with hstep | ⟨t', call', ha, -, rfl⟩
  · exact call?_request hstep
  · cases ha
    rw [State.threads_setThread_self]
    rfl

/-- A request that misses, from its first look-up to the release of the key lock. -/
def coldRequest (t : ℕ) (call : KeywordCall Endpoint) : List (Action (KeywordCall Endpoint)) :=
  [.request t call, .getEntry t, .lock t, .recheck t, .readDatabase t, .put t, .unlock t]

/-- A cold request that nothing interrupts stores what it returns. -/
theorem run_coldRequest {s : State (KeywordCall Endpoint) Str} {t : ℕ} {call : KeywordCall Endpoint}
    (hfresh : call.fresh = false) (hkey : call.HasKey) (hidle : s.threads t = .idle)
    (hmiss : s.cache.items (call.key printable qualname) = none)
    (hfree : s.keyLock (call.key printable qualname) = none) :
    Runs.run (serve printable qualname) s (coldRequest t call) =
      some ({ s with
        cache := s.cache.put s.now (call.key printable qualname) ⟨call, s.committed⟩ }.setThread t
          (.done call (some ⟨call, s.committed⟩))) := by
  have hlock : Function.update s.keyLock (call.key printable qualname) none = s.keyLock :=
    Function.update_eq_self_iff.mpr hfree.symm
  simp [coldRequest, Runs.run, Cache.serve, Cache.step, State.setThread, TTLCache.getEntry, afterLookup,
    afterRecheck, hfresh, hkey, hidle, hmiss, hfree, hlock]

/-- A request that finds an entry of this generation, which has not expired, returns its value. -/
theorem run_hit {s : State (KeywordCall Endpoint) Str} {t : ℕ} {call : KeywordCall Endpoint}
    {item : Item (Body (KeywordCall Endpoint))} (hfresh : call.fresh = false) (hkey : call.HasKey)
    (hidle : s.threads t = .idle) (hitem : s.cache.items (call.key printable qualname) = some item)
    (hcurrent : item.generation = s.cache.generation) (hage : s.now - item.ts ≤ s.cache.ttlSeconds) :
    Runs.run (serve printable qualname) s [.request t call, .getEntry t] =
      some (s.setThread t (.done call (some item.value))) := by
  simp [Runs.run, Cache.serve, Cache.step, State.setThread, TTLCache.getEntry, afterLookup, hfresh, hkey,
    hidle, hitem, hcurrent, not_lt.mpr hage]

/-- The values of two dictionaries with the same items are the same. -/
theorem KeywordCall.Same.value_unique {a b : KeywordCall Endpoint} (h : a.Same b) {name : Str}
    {v w : Scalar} (hv : (name, v) ∈ a.kwargs) (hw : (name, w) ∈ b.kwargs) : v = w := by
  have hw : (name, w) ∈ a.kwargs := h.2.mem_iff.mpr hw
  have hitem : (name, v) = (name, w) := List.inj_on_of_nodup_map a.names_nodup hv hw rfl
  exact congrArg Prod.snd hitem

/-- In every run of endpoints with different names, the body returned to a request was computed by a
call of the same endpoint with the arguments of the request; a guest never receives what was computed
for an authenticated viewer. -/
theorem served_same (hqualname : Function.Injective qualname) {ttlSeconds now : ℚ}
    {as : List (Action (KeywordCall Endpoint))} {s : State (KeywordCall Endpoint) Str}
    (hrun : Runs.run (serve printable qualname) (State.init ttlSeconds now) as = some s) :
    (∀ a b : KeywordCall Endpoint, a.key printable qualname = b.key printable qualname → a.Same b) ∧
    ∀ t call, .request t call ∈ as →
      ∀ call' body, s.threads t = .done call' (some body) →
        call' = call ∧ body.call.Same call ∧
          ((lit "visibility", .str (lit "guest")) ∈ call.kwargs →
            (lit "visibility", .str (lit "authenticated")) ∉ body.call.kwargs) := by
  refine ⟨fun a b => KeywordCall.same_of_key_eq printable hqualname, ?_⟩
  intro t call hrequest call' body hdone
  have hcall : (s.threads t).call? = some call :=
    Runs.run_of_mem (P := fun m => (m.threads t).call? = some call) hrun hrequest
      (fun _ _ => call?_serve_request) fun _ _ _ h hstep => call?_serve hstep h
  rw [hdone] at hcall
  obtain rfl : call' = call := Option.some.inj hcall
  have hisolated : Isolated (KeywordCall.key printable qualname) s :=
    Runs.run_preserves (fun _ _ _ h hstep => h.serve hstep) (isolated_init _ ttlSeconds now) hrun
  have hkey : body.call.key printable qualname = call'.key printable qualname :=
    hisolated.thread t call' (by rw [hdone]; rfl) body (by rw [hdone]; rfl)
  have hsame := KeywordCall.same_of_key_eq printable hqualname hkey
  refine ⟨rfl, hsame, fun hguest hauthenticated => ?_⟩
  exact absurd (hsame.value_unique hauthenticated hguest) (by decide)

end Requests

/-- Two endpoints. -/
def endpointName (endpoint : Bool) : Str := if endpoint then lit "dashboard" else lit "repositories"

/-- A request to one of them, for a repository whose name has the look of an argument. -/
def awkwardCall (endpoint : Bool) (visibility : Str) : KeywordCall Bool :=
  ⟨endpoint, [(lit "repository", .str (lit "R', 'x')")), (lit "visibility", .str visibility)],
    show [lit "repository", lit "visibility"].Nodup by decide⟩

/-- The call of a guest. -/
def guestCall : KeywordCall Bool := awkwardCall true (lit "guest")

/-- A signed-in viewer asks an endpoint, and a guest the same one and the other one. After a commit that is
not announced yet the guest asks again. -/
def guestRequests : List (Action (KeywordCall Bool)) :=
  coldRequest 0 (awkwardCall true (lit "authenticated")) ++
    (coldRequest 1 guestCall ++
      (coldRequest 2 (awkwardCall false (lit "guest")) ++
        (.commit 0 :: [.request 3 guestCall, .getEntry 3])))

/-- The guest hits the entry that was computed for a guest of the same endpoint, before the commit. -/
theorem guestRequest_same :
    ∃ s, Runs.run (serve (fun _ => false) endpointName) (State.init 3600 0) guestRequests = some s ∧
      s.committed = [0] ∧ s.threads 0 = .done (awkwardCall true (lit "authenticated"))
        (some ⟨awkwardCall true (lit "authenticated"), []⟩) ∧
      s.threads 3 = .done guestCall (some ⟨guestCall, []⟩) ∧ guestCall.Same guestCall ∧
      (lit "visibility", .str (lit "authenticated")) ∉ guestCall.kwargs := by
  have hinjective : Function.Injective endpointName := by
    decide
  -- the three calls have three keys
  have hviewer : guestCall.key (fun _ => false) endpointName ≠
      (awkwardCall true (lit "authenticated")).key (fun _ => false) endpointName :=
    fun h => absurd (KeywordCall.same_of_key_eq _ hinjective h).2 (by decide)
  have hother : (awkwardCall false (lit "guest")).key (fun _ => false) endpointName ≠
      (awkwardCall true (lit "authenticated")).key (fun _ => false) endpointName :=
    fun h => absurd (KeywordCall.same_of_key_eq _ hinjective h).1 (by decide)
  have hendpoint : (awkwardCall false (lit "guest")).key (fun _ => false) endpointName ≠
      guestCall.key (fun _ => false) endpointName :=
    fun h => absurd (KeywordCall.same_of_key_eq _ hinjective h).1 (by decide)
  obtain ⟨s, hrun, hcommitted, hfirst, hlast⟩ : ∃ s,
      Runs.run (serve (fun _ => false) endpointName) (State.init 3600 0) guestRequests = some s ∧
      s.committed = [0] ∧ s.threads 0 = .done (awkwardCall true (lit "authenticated"))
        (some ⟨awkwardCall true (lit "authenticated"), []⟩) ∧
      s.threads 3 = .done guestCall (some ⟨guestCall, []⟩) := by
    apply Exists.intro
    apply And.intro
    · apply Runs.run_append.mpr
      refine ⟨_, run_coldRequest rfl (by decide) rfl rfl rfl, ?_⟩
      apply Runs.run_append.mpr
      refine ⟨_, run_coldRequest rfl (by decide) rfl ?_ rfl, ?_⟩
      · exact Function.update_of_ne hviewer _ _
      apply Runs.run_append.mpr
      refine ⟨_, run_coldRequest rfl (by decide) rfl ?_ rfl, ?_⟩
      · simp only [TTLCache.put, State.setThread, Function.update_of_ne hendpoint,
          Function.update_of_ne hother]
        rfl
      apply Runs.run_cons.mpr
      refine ⟨_, rfl, run_hit rfl (by decide) rfl (?_ : _ = some ⟨⟨guestCall, []⟩, 0, 0⟩) rfl ?_⟩
      · simp only [TTLCache.put, State.setThread, Function.update_of_ne hendpoint.symm, Function.update_self]
        rfl
      · exact (by norm_num : (0 - 0 : ℚ) ≤ 3600)
    · exact ⟨rfl, rfl, rfl⟩
  obtain ⟨-, hsame, hguest⟩ := (served_same hinjective hrun).2 3 guestCall
    (by simp [guestRequests]) guestCall ⟨guestCall, []⟩ hlast
  exact ⟨s, hrun, hcommitted, hfirst, hlast, hsame, hguest (by decide)⟩

end Ghpulse.Cache
