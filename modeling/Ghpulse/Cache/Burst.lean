import Ghpulse.Cache.SingleFlight

/-!
# A burst of cold requests

Requests on a key without an entry wait for the key lock. The first of them to take it computes the
value and puts it; the others find it, before they wait or after. The phases of a burst are these
three: no computation yet, one thread computing, the value stored.

A burst is any number of requests on one key, with other keys served in between and no request past the
cache. Its state (`Burst`) says how far it has come, what is stored, and where its threads can be in that
phase. Each step keeps the phase or moves it on, and the count of invocations grows with the phase, so it
never exceeds one.

Reference: `backend/cache.py` (`cache_response.wrapper`).
-/

namespace Ghpulse.Cache

variable {Call κ : Type} [DecidableEq κ] (key : Call → κ) (fresh : Call → Bool) (k : κ)

/-! ## Counting invocations

An endpoint is called in three places: by a request past the cache, after a second look-up that misses,
and by a job that starts. The count is of the actions that enter these places.
-/

/-- The number of calls of the endpoint that an action starts for a key. -/
def invocations (s : State Call κ) : Action Call → ℕ
  | .request _ call => if fresh call = true ∧ key call = k then 1 else 0
  | .recheck t =>
    match s.threads t with
    | .recheck call =>
      if key call = k ∧ (s.cache.getEntry s.now (key call)).1.isNone then 1 else 0
    | _ => 0
  | .start t =>
    match s.threads t with
    | .queued call _ => if key call = k then 1 else 0
    | _ => 0
  | _ => 0

/-- A step of a burst that succeeds: no call for the key raises, its entry does not expire, and nothing
is cleared or invalidated. -/
structure Quiet (s : State Call κ) (a : Action Call) : Prop where
  raise : ∀ t, a = .raise t → ∀ call, (s.threads t).call? = some call → key call ≠ k
  unexpired : ∀ i, s.cache.items k = some i → s.now - i.ts ≤ s.cache.ttlSeconds
  clear : a ≠ .clear
  invalidate : ∀ r, a ≠ .invalidate r

/-! ## The phases

`Allows` is the heart of the invariant: while nobody computes, a thread of the burst is at a look-up or
waits; while one computes, the others still are; a thread past the lock has the stored value.
-/

/-- How far a burst has come. -/
inductive Phase where
  | cold
  | computing (t : ℕ)
  | warm

/-- The number of invocations so far. -/
def Phase.count : Phase → ℕ
  | .cold => 0
  | .computing _ => 1
  | .warm => 1

theorem Phase.count_le_one (p : Phase) : p.count ≤ 1 := by
  cases p with
  | cold => exact Nat.zero_le 1
  | computing => exact le_refl 1
  | warm => exact le_refl 1

/-- What is stored under the key: nothing, or from the last phase on an item of this generation. -/
def Phase.Entry (p : Phase) (c : TTLCache κ (Body Call)) : Prop :=
  match p with
  | .warm => ∃ i, c.items k = some i ∧ i.generation = c.generation
  | _ => c.items k = none

/-- Where a thread that serves the key can be; the `old` threads were done before the burst. -/
def Phase.Allows (p : Phase) (old : ℕ → Prop) (t : ℕ) : Thread Call → Prop
  | .lookup _ | .acquire _ | .recheck _ => True
  | .compute _ | .computed _ _ => p = .computing t
  | .unlock _ _ => p = .warm
  | .done _ _ => p = .warm ∨ old t
  | _ => False

/-- The state of a burst in a phase. -/
structure Burst (old : ℕ → Prop) (p : Phase) (s : State Call κ) : Prop where
  entry : p.Entry k s.cache
  inline : ∀ t, p = .computing t → ∃ call, (s.threads t).inline? = some call ∧ key call = k
  allows : ∀ t call, (s.threads t).call? = some call → key call = k → p.Allows old t (s.threads t)

variable {key k} {old : ℕ → Prop} {p : Phase} {s : State Call κ}

theorem Thread.call?_of_inline? {th : Thread Call} {call : Call} (h : th.inline? = some call) :
    th.call? = some call := by
  cases th <;> first | exact h | cases h

/-- Where a waiting thread may be, it may be in every phase. -/
theorem Phase.Allows.of_cold {t : ℕ} {th : Thread Call} (h : Phase.cold.Allows old t th) (q : Phase) :
    q.Allows old t th := by
  cases th with
  | compute | computed | unlock => cases h
  | done =>
    rcases h with h | h
    · cases h
    · exact Or.inr h
  | _ => exact h

/-- Every thread but the computing one may stay where it is when the value is stored. -/
theorem Phase.Allows.warm {t t' : ℕ} {th : Thread Call} (h : (Phase.computing t).Allows old t' th)
    (hne : t' ≠ t) : Phase.warm.Allows old t' th := by
  cases th with
  | compute | computed => exact absurd (Phase.computing.inj h).symm hne
  | unlock => cases h
  | done => exact Or.inl rfl
  | _ => exact h

namespace Burst

omit [DecidableEq κ] in
/-- One thread moves on and the entry of the key stays. -/
theorem move (h : Burst key k old p s) {t : ℕ} {th' : Thread Call} {s' : State Call κ}
    (hthreads : s'.threads = (s.setThread t th').threads)
    (hitems : s'.cache.items k = s.cache.items k)
    (hgeneration : s'.cache.generation = s.cache.generation)
    (hallows : ∀ call, th'.call? = some call → key call = k → p.Allows old t th')
    (hinline : p = .computing t → ∃ call, th'.inline? = some call ∧ key call = k) :
    Burst key k old p s' where
  entry := by
    have hentry := h.entry
    cases p <;> simpa only [Phase.Entry, hitems, hgeneration] using hentry
  inline := by
    intro t' hp
    rw [hthreads]
    by_cases ht : t' = t
    · subst ht
      rw [State.threads_setThread_self]
      exact hinline hp
    · rw [State.threads_setThread_of_ne s ht]
      exact h.inline t' hp
  allows := by
    intro t' call hcall hkey
    rw [hthreads] at hcall ⊢
    by_cases ht : t' = t
    · subst ht
      rw [State.threads_setThread_self] at hcall ⊢
      exact hallows call hcall hkey
    · rw [State.threads_setThread_of_ne s ht] at hcall ⊢
      exact h.allows t' call hcall hkey

omit [DecidableEq κ] in
/-- A thread that serves another key may do anything that leaves the entry alone. -/
theorem other (h : Burst key k old p s) {t : ℕ} {th th' : Thread Call} {call : Call}
    {s' : State Call κ} (hth : s.threads t = th) (hcall : th.call? = some call) (hne : key call ≠ k)
    (hcall' : th'.call? = some call) (hthreads : s'.threads = (s.setThread t th').threads)
    (hitems : s'.cache.items k = s.cache.items k)
    (hgeneration : s'.cache.generation = s.cache.generation) : Burst key k old p s' := by
  apply h.move hthreads hitems hgeneration
  · intro c hc hkey
    rw [hcall'] at hc
    cases hc
    exact absurd hkey hne
  · intro hp
    obtain ⟨c, hc, hkey⟩ := h.inline t hp
    have hc := Thread.call?_of_inline? hc
    rw [hth, hcall] at hc
    cases hc
    exact absurd hkey hne

omit [DecidableEq κ] in
/-- A thread at a place that no phase allows serves another key. -/
theorem outside (h : Burst key k old p s) {t : ℕ} {th : Thread Call} {call : Call}
    (hth : s.threads t = th) (hcall : th.call? = some call) (hout : ¬ p.Allows old t th) :
    key call ≠ k := by
  intro hkey
  have hallows := h.allows t call (by rw [hth, hcall]) hkey
  rw [hth] at hallows
  exact hout hallows

omit [DecidableEq κ] in
/-- A thread that is not computing is not the computing one. -/
theorem not_computing (h : Burst key k old p s) {t : ℕ} {th : Thread Call} (hth : s.threads t = th)
    (hinline : th.inline? = none) : p ≠ .computing t := by
  intro hp
  obtain ⟨c, hc, -⟩ := h.inline t hp
  rw [hth, hinline] at hc
  cases hc

omit [DecidableEq κ] in
/-- Steps that only touch the clock, the ingest runs or the worker pool. -/
theorem congr (h : Burst key k old p s) {s' : State Call κ} (hthreads : s'.threads = s.threads)
    (hcache : s'.cache = s.cache) : Burst key k old p s' where
  entry := hcache ▸ h.entry
  inline := fun t hp => hthreads ▸ h.inline t hp
  allows := fun t call => hthreads ▸ h.allows t call

omit [DecidableEq κ] in
/-- A miss under the lock starts the computation. -/
theorem start (h : Burst key k old .cold s) {t : ℕ} {call : Call} {s' : State Call κ}
    (hkey : key call = k) (hthreads : s'.threads = (s.setThread t (.compute call)).threads)
    (hcache : s'.cache = s.cache) : Burst key k old (.computing t) s' where
  entry := hcache ▸ h.entry
  inline := by
    intro t' hp
    cases hp
    rw [hthreads, State.threads_setThread_self]
    exact ⟨call, rfl, hkey⟩
  allows := by
    intro t' c hc hk
    rw [hthreads] at hc ⊢
    by_cases ht : t' = t
    · subst ht
      rw [State.threads_setThread_self]
      exact rfl
    · rw [State.threads_setThread_of_ne s ht] at hc ⊢
      exact (h.allows t' c hc hk).of_cold _

/-- The computed value is stored. -/
theorem put {t : ℕ} (h : Burst key k old (.computing t) s) {call : Call} {body : Body Call}
    {s' : State Call κ} (hkey : key call = k)
    (hthreads : s'.threads = (s.setThread t (.unlock call (some body))).threads)
    (hcache : s'.cache = s.cache.put s.now (key call) body) : Burst key k old .warm s' where
  entry := by
    rw [hcache, ← hkey]
    exact ⟨_, TTLCache.items_put_self s.cache s.now (key call) body, rfl⟩
  inline := by
    intro t' hp
    cases hp
  allows := by
    intro t' c hc hk
    rw [hthreads] at hc ⊢
    by_cases ht : t' = t
    · subst ht
      rw [State.threads_setThread_self]
      exact rfl
    · rw [State.threads_setThread_of_ne s ht] at hc ⊢
      exact (h.allows t' c hc hk).warm ht

/-- What a request on the key finds: nothing before the value is stored, and then the value. -/
theorem getEntry (h : Burst key k old p s)
    (hunexpired : ∀ i, s.cache.items k = some i → s.now - i.ts ≤ s.cache.ttlSeconds) :
    (p ≠ .warm ∧ s.cache.getEntry s.now k = (none, s.cache)) ∨
      (p = .warm ∧ ∃ value, s.cache.getEntry s.now k = (some (value, false), s.cache)) := by
  have hentry := h.entry
  cases p with
  | cold =>
    have hnone : s.cache.items k = none := hentry
    exact Or.inl ⟨by simp, TTLCache.getEntry_of_none hnone s.now⟩
  | computing t =>
    have hnone : s.cache.items k = none := hentry
    exact Or.inl ⟨by simp, TTLCache.getEntry_of_none hnone s.now⟩
  | warm =>
    obtain ⟨i, hi, hgeneration⟩ := hentry
    have hfound := TTLCache.getEntry_of_le hi (hunexpired i hi)
    simp only [hgeneration, ne_eq, not_true_eq_false, decide_false] at hfound
    exact Or.inr ⟨rfl, i.value, hfound⟩

/-- A step of a thread that serves another key. -/
theorem step_other (h : Burst key k old p s) {t : ℕ} {th th' : Thread Call} {call : Call}
    {s' : State Call κ} {a : Action Call} (hcount : invocations key (fun _ => false) k s a = 0)
    (hth : s.threads t = th) (hcall : th.call? = some call) (hne : key call ≠ k)
    (hcall' : th'.call? = some call) (hthreads : s'.threads = (s.setThread t th').threads)
    (hitems : s'.cache.items k = s.cache.items k)
    (hgeneration : s'.cache.generation = s.cache.generation) :
    ∃ q : Phase, Burst key k old q s' ∧
      q.count = p.count + invocations key (fun _ => false) k s a :=
  ⟨p, h.other hth hcall hne hcall' hthreads hitems hgeneration, by rw [hcount, Nat.add_zero]⟩

/-- One step of a quiet burst. -/
theorem step (h : Burst key k old p s) (hflight : SingleFlight key s) {s' : State Call κ}
    {a : Action Call} (hquiet : Quiet key k s a)
    (hstep : step key (fun _ => false) s a = some s') :
    ∃ q : Phase, Burst key k old q s' ∧
      q.count = p.count + invocations key (fun _ => false) k s a := by
  cases Step.of_step hstep with
  | @request t call hth =>
    refine ⟨p, h.move rfl rfl rfl (fun _ _ _ => trivial) fun hp => ?_, ?_⟩
    · exact absurd hp (h.not_computing hth rfl)
    · simp only [invocations, Bool.false_eq_true, false_and, if_false, Nat.add_zero]
  | @getEntry t call hth =>
    by_cases hkey : key call = k
    · subst hkey
      have hne := h.not_computing hth rfl
      rcases h.getEntry hquiet.unexpired with ⟨-, hmiss⟩ | ⟨hwarm, value, hhit⟩
      · rw [hmiss]
        exact ⟨p, h.move rfl rfl rfl (fun _ _ _ => trivial) fun hp => absurd hp hne, rfl⟩
      · rw [hhit]
        exact ⟨p, h.move rfl rfl rfl (fun _ _ _ => Or.inl hwarm) fun hp => absurd hp hne, rfl⟩
    -- another key: its look-up can at most drop its own entry
    · refine h.step_other rfl hth rfl hkey ?_ rfl ?_ ?_
      · rcases (s.cache.getEntry s.now _).1 with _ | ⟨value, _ | _⟩ <;> rfl
      · exact TTLCache.items_getEntry_of_ne (Ne.symm hkey) s.cache s.now
      · exact TTLCache.generation_getEntry s.cache s.now (key call)
  | registered hth =>
    exact h.step_other rfl hth rfl (h.outside hth rfl id) rfl rfl rfl rfl
  | register hth =>
    exact h.step_other rfl hth rfl (h.outside hth rfl id) rfl rfl rfl rfl
  | readGeneration hth =>
    exact h.step_other rfl hth rfl (h.outside hth rfl id) rfl rfl rfl rfl
  | refuse hth => exact h.step_other rfl hth rfl (h.outside hth rfl id) rfl rfl rfl rfl
  | unregisterRefused hth =>
    exact h.step_other rfl hth rfl (h.outside hth rfl id) rfl rfl rfl rfl
  | unregister hth => exact h.step_other rfl hth rfl (h.outside hth rfl id) rfl rfl rfl rfl
  | readBypass hth => exact h.step_other rfl hth rfl (h.outside hth rfl id) rfl rfl rfl rfl
  | readRefresh hth => exact h.step_other rfl hth rfl (h.outside hth rfl id) rfl rfl rfl rfl
  | finish hth => exact h.step_other rfl hth rfl (h.outside hth rfl id) rfl rfl rfl rfl
  -- no thread of the burst refreshes in the background
  | publish hth =>
    have hne := h.outside hth rfl id
    refine h.step_other rfl hth rfl hne rfl rfl ?_ ?_
    · exact TTLCache.items_putIfGeneration_of_ne (Ne.symm hne) s.cache s.now _ _
    · exact TTLCache.generation_putIfGeneration s.cache s.now _ _ _
  | start hth =>
    have hne := h.outside hth rfl id
    refine h.step_other ?_ hth rfl hne rfl rfl rfl rfl
    simp only [invocations, hth, if_neg hne]
  | @submit t j call value generation hth hidle =>
    have hne := h.outside hth rfl id
    have hdone : Burst key k old p (s.setThread t (.done call (some value))) :=
      h.other hth rfl hne rfl rfl rfl rfl
    refine ⟨p, hdone.move rfl rfl rfl ?_ ?_, rfl⟩
    · intro c hc hkey
      cases hc
      exact absurd hkey hne
    · exact fun hp => absurd hp (h.not_computing hidle rfl)
  | raiseBypass hth =>
    rcases hth with hth | ⟨b, hth⟩
    · exact h.step_other rfl hth rfl (h.outside hth rfl id) rfl rfl rfl rfl
    · exact h.step_other rfl hth rfl (h.outside hth rfl id) rfl rfl rfl rfl
  | raiseRefresh hth =>
    rcases hth with hth | ⟨b, hth⟩
    · exact h.step_other rfl hth rfl (h.outside hth rfl id) rfl rfl rfl rfl
    · exact h.step_other rfl hth rfl (h.outside hth rfl id) rfl rfl rfl rfl
  | @raiseCompute t call hth =>
    rcases hth with hth | ⟨b, hth⟩
    · exact h.step_other rfl hth rfl (hquiet.raise t rfl call (by rw [hth]; rfl)) rfl rfl rfl rfl
    · exact h.step_other rfl hth rfl (hquiet.raise t rfl call (by rw [hth]; rfl)) rfl rfl rfl rfl
  | lock hth =>
    refine ⟨p, h.move rfl rfl rfl (fun _ _ _ => trivial) fun hp => ?_, rfl⟩
    exact absurd hp (h.not_computing hth rfl)
  | @recheck t call hth =>
    by_cases hkey : key call = k
    · subst hkey
      rcases h.getEntry hquiet.unexpired with ⟨hcold, hmiss⟩ | ⟨hwarm, value, hhit⟩
      · have hcount : invocations key (fun _ => false) (key call) s (.recheck t) = 1 := by
          simp only [invocations, hth, hmiss, Option.isNone_none, and_self, if_true]
        rw [hcount, hmiss]
        cases p with
        | cold => exact ⟨.computing t, h.start rfl rfl rfl, rfl⟩
        | warm => exact absurd rfl hcold
        | computing t' =>
          -- the computing thread and this one hold the same lock
          obtain ⟨call', hinline, hkey⟩ := h.inline t' rfl
          have hlocked := Thread.locked?_of_inline? hinline
          obtain rfl := hflight.locked_unique hlocked (by rw [hth]; rfl) hkey
          exact absurd rfl (h.not_computing hth rfl)
      · have hcount : invocations key (fun _ => false) (key call) s (.recheck t) = 0 := by
          simp only [invocations, hth, hhit, Option.isNone_some, Bool.false_eq_true, and_false,
            if_false]
        rw [hcount, hhit]
        refine ⟨p, h.move rfl rfl rfl (fun _ _ _ => hwarm) fun hp => ?_, rfl⟩
        exact absurd hp (h.not_computing hth rfl)
    · refine h.step_other ?_ hth rfl hkey ?_ rfl ?_ ?_
      · simp only [invocations, hth, hkey, false_and, if_false]
      · rcases (s.cache.getEntry s.now _).1 with _ | ⟨value, stale⟩ <;> rfl
      · exact TTLCache.items_getEntry_of_ne (Ne.symm hkey) s.cache s.now
      · exact TTLCache.generation_getEntry s.cache s.now (key call)
  -- only the computing thread gets here, and it stays the computing one
  | @readCompute t call hth =>
    by_cases hkey : key call = k
    · have hallows := h.allows t call (by rw [hth]; rfl) hkey
      rw [hth] at hallows
      exact ⟨p, h.move rfl rfl rfl (fun _ _ _ => hallows) fun _ => ⟨call, rfl, hkey⟩, rfl⟩
    · exact h.step_other rfl hth rfl hkey rfl rfl rfl rfl
  | @put t call body hth =>
    by_cases hkey : key call = k
    · have hallows := h.allows t call (by rw [hth]; rfl) hkey
      rw [hth] at hallows
      obtain rfl : p = .computing t := hallows
      exact ⟨.warm, h.put hkey rfl rfl, rfl⟩
    · refine h.step_other rfl hth rfl hkey rfl rfl ?_ rfl
      exact TTLCache.items_put_of_ne (Ne.symm hkey) s.cache s.now body
  | @unlock t call result hth =>
    refine ⟨p, h.move rfl rfl rfl ?_ fun hp => absurd hp (h.not_computing hth rfl), rfl⟩
    intro c hc hkey
    cases hc
    have hallows := h.allows t call (by rw [hth]; rfl) hkey
    rw [hth] at hallows
    exact Or.inl hallows
  | clear => exact absurd rfl hquiet.clear
  | invalidate => exact absurd rfl (hquiet.invalidate _)
  | setClock | commit | startWorkers | stopWorkers => exact ⟨p, h.congr rfl rfl, rfl⟩

end Burst

/-! ## Runs

The burst starts from a cold key with threads that are all done or serve other keys, and ends in some
phase. When a request of it has returned, the phase is the last one.
-/

section Runs

variable (key)

/-- No thread is at work on a key, and nothing is stored under it. -/
structure Cold (k : κ) (s : State Call κ) : Prop where
  entry : s.cache.items k = none
  done : ∀ t call, (s.threads t).call? = some call → key call = k →
    ∃ result, s.threads t = .done call result

variable {key}

/-- A thread that is requested in a run was not done before it. -/
theorem not_done_of_request {s' : State Call κ} {as : List (Action Call)} {t : ℕ} {call : Call}
    (hrun : Runs.run (step key fresh) s as = some s') (h : .request t call ∈ as) :
    ¬ ∃ call' result, s.threads t = .done call' result := by
  rintro ⟨call', result, hdone⟩
  obtain ⟨before, after, rfl⟩ := List.append_of_mem h
  obtain ⟨m, hbefore, hrun⟩ := Runs.run_append.mp hrun
  obtain ⟨m', hrequest, -⟩ := Runs.run_cons.mp hrun
  have hcall : (m.threads t).call? = some call' :=
    Runs.run_preserves (P := fun m => (m.threads t).call? = some call')
      (fun _ _ _ h hstep => call?_step hstep h) (by rw [hdone]; rfl) hbefore
  cases Step.of_step hrequest with
  | request hidle =>
    rw [hidle] at hcall
    cases hcall

/-- A quiet run from a cold key ends in a phase that has counted the invocations. -/
theorem burst_of_run (hflight : SingleFlight key s) {k : κ} (hcold : Cold key k s)
    {as : List (Action Call)} {s' : State Call κ}
    (hquiet : Runs.Guarded (step key fun _ => false) (Quiet key k) s as)
    (hrun : Runs.run (step key fun _ => false) s as = some s') :
    ∃ p : Phase, Burst key k (fun t => ∃ call result, s.threads t = .done call result) p s' ∧
      p.count =
        Runs.total (step key fun _ => false) (invocations key (fun _ => false) k) s as := by
  have hstart : Burst key k (fun t => ∃ call result, s.threads t = .done call result) .cold s := by
    refine ⟨hcold.entry, fun t hp => (by cases hp), ?_⟩
    intro t call hcall hkey
    obtain ⟨result, hdone⟩ := hcold.done t call hcall hkey
    rw [hdone]
    exact Or.inr ⟨call, result, hdone⟩
  have hrunning := Runs.total_preserves_of_guarded
    (f := invocations key (fun _ => false) k)
    (P := fun m n => SingleFlight key m ∧ ∃ p : Phase,
      Burst key k (fun t => ∃ call result, s.threads t = .done call result) p m ∧ p.count = n)
    (n := 0) (s := s) ?_ ⟨hflight, .cold, hstart, rfl⟩ hquiet hrun
  · rw [Nat.zero_add] at hrunning
    exact hrunning.2
  · rintro m a m' n ⟨hm, p, hp, rfl⟩ hok hstep
    exact ⟨hm.step hstep, hp.step hm hok hstep⟩

/-- In every run of requests, refreshes, refusals, expiries and invalidations: one inline computation
and one refresh of a key at a time; a key is in `_refreshing` exactly while some thread is inside of
`_schedule_refresh` for it or its job has not finished, any such thread can be refused or fail and then
takes the key out, and after that a stale hit can schedule again; and a quiet burst on a cold key
invokes the endpoint at most once, and once when a request of it has returned. -/
theorem singleFlight_of_run {ttlSeconds now : ℚ} {as : List (Action Call)} {s : State Call κ}
    (hrun : Runs.run (step key fun _ => false) (State.init ttlSeconds now) as = some s) :
    (∀ t t' call call', (s.threads t).inline? = some call → (s.threads t').inline? = some call' →
      key call = key call' → t = t') ∧
    (∀ t t' call call', (s.threads t).registered? = some call →
      (s.threads t').registered? = some call' → key call = key call' → t = t') ∧
    (∀ k, s.refreshing k = true ↔
      ∃ t call, (s.threads t).registered? = some call ∧ key call = k) ∧
    (∀ t call, (s.threads t).registered? = some call →
      Releases key (fun _ => false) s t (key call)) ∧
    (∀ t call value, s.threads t = .schedule call value →
      (∀ t' call', (s.threads t').registered? = some call' → key call' ≠ key call) →
      ∃ s', step key (fun _ => false) s (.register t) = some s' ∧ s'.threads t = .token call value) ∧
    ∀ k, Cold key k s → ∀ burst s', Runs.Guarded (step key fun _ => false) (Quiet key k) s burst →
      Runs.run (step key fun _ => false) s burst = some s' →
      Runs.total (step key fun _ => false) (invocations key (fun _ => false) k) s burst ≤ 1 ∧
      ∀ t call, .request t call ∈ burst → key call = k →
        ∀ call' result, s'.threads t = .done call' result →
        Runs.total (step key fun _ => false) (invocations key (fun _ => false) k) s burst = 1 := by
  have hflight : SingleFlight key s :=
    Runs.run_preserves (fun _ _ _ h hstep => h.step hstep) (singleFlight_init key ttlSeconds now) hrun
  refine ⟨?_, ?_, hflight.refreshing_iff, fun t call ht => releases ht, ?_, ?_⟩
  · intro t t' call call' ht ht' hkey
    exact hflight.locked_unique (Thread.locked?_of_inline? ht) (Thread.locked?_of_inline? ht') hkey
  · intro t t' call call' ht ht' hkey
    exact hflight.registered_unique ht ht' hkey
  · intro t call value hth hfree
    exact hflight.can_register hth hfree
  · intro k hcold burst s' hquiet hburst
    obtain ⟨p, hp, hcount⟩ := burst_of_run hflight hcold hquiet hburst
    rw [← hcount]
    refine ⟨p.count_le_one, ?_⟩
    intro t call hrequest hkey call' result hdone
    have hcall : (s'.threads t).call? = some call :=
      Runs.run_of_mem (P := fun m => (m.threads t).call? = some call) hburst hrequest
        (fun _ _ => call?_request) fun _ _ _ h hstep => call?_step hstep h
    have hallows := hp.allows t call hcall hkey
    rw [hdone] at hallows
    rcases hallows with rfl | hold
    · rfl
    · exact absurd hold (not_done_of_request _ hburst hrequest)

end Runs

/-- A burst of two requests; the second one waits for the lock of the first. -/
def twoColdRequests : List (Action Unit) :=
  [.request 0 (), .request 1 (), .getEntry 0, .getEntry 1, .lock 0, .recheck 0, .readDatabase 0,
    .put 0, .unlock 0]

/-- Two cold requests invoke the endpoint once. -/
theorem twoColdRequests_once :
    Runs.total (step id fun _ => false) (invocations id (fun _ => false) ())
      (State.init 3600 0 : State Unit Unit) twoColdRequests = 1 := by
  have hcold : Cold id () (State.init 3600 0 : State Unit Unit) :=
    ⟨rfl, fun _ _ h _ => by cases h⟩
  have hquiet : Runs.Guarded (step id fun _ => false) (Quiet id ())
      (State.init 3600 0 : State Unit Unit) twoColdRequests := by
    -- nothing is stored before the last action, the `unlock`
    iterate 8
      refine ⟨⟨fun _ h => (by cases h), fun _ h => (by cases h), by simp, by simp⟩, fun _ h => ?_⟩
      cases h
    refine ⟨⟨fun _ h => (by cases h), fun i hi => ?_, by simp, by simp⟩, fun _ _ => trivial⟩
    have hstored := TTLCache.items_put_self (.new 3600) (0 : ℚ) () (Body.mk () [])
    obtain rfl := Option.some.inj (hstored.symm.trans hi)
    have hage : (0 : ℚ) - 0 ≤ 3600 := by decide +kernel
    exact hage
  have hrun : Runs.run (step id fun _ => false) (State.init 3600 0 : State Unit Unit) [] = some _ := rfl
  obtain ⟨-, -, -, -, -, hburst⟩ := singleFlight_of_run hrun
  exact (hburst () hcold twoColdRequests _ hquiet rfl).2 0 () List.mem_cons_self rfl () _ rfl

end Ghpulse.Cache
