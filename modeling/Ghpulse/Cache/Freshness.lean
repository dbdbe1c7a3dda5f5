import Ghpulse.Cache.Threads

/-!
# Freshness of the response cache

`FreshHits` says that a hit reported as current carries a value whose database read observed every
ingest commit that was invalidated so far. The background path keeps it: the generation is read
before the endpoint call starts, so a `put_if_generation` that succeeds saw no invalidation in
between. The inline path stamps the value with the generation at the time of the `put`, whatever
happened since the endpoint read the database; `PutObserves` is the condition under which that is
harmless.
-/

namespace Ghpulse.Cache

variable {Call κ : Type}

/-! ## The invariant

A value is sound for a generation when its database read observed every run that was invalidated before
that generation began. The invariant says this of the items of the current generation and of the refreshes
that still hold the current generation as their token; about older ones it says nothing, because they are
stale or will not be published.
-/

/-- Every ingest run whose `invalidate` completed committed before the read behind `body`. -/
def Observes (s : State Call κ) (body : Body Call) : Prop :=
  ∀ r ∈ s.invalidated, r ∈ body.observed

/-- What a refresh in flight promises about the generation it holds: it is not newer than the
cache's, and a value already read under the cache's own generation observed every invalidated run. -/
def TokenSound (s : State Call κ) : Thread Call → Prop
  | .submit _ _ g => g ≤ s.cache.generation
  | .queued _ g => g ≤ s.cache.generation
  | .refresh _ g => g ≤ s.cache.generation
  | .refreshed _ g body =>
    g ≤ s.cache.generation ∧ (g = s.cache.generation → Observes s body)
  | _ => True

/-- The invariant of the guarded system. -/
structure Coherent (s : State Call κ) : Prop where
  invalidated_committed : ∀ r ∈ s.invalidated, r ∈ s.committed
  item_le : ∀ k i, s.cache.items k = some i → i.generation ≤ s.cache.generation
  item_current : ∀ k i, s.cache.items k = some i → i.generation = s.cache.generation →
    Observes s i.value
  token_sound : ∀ t, TokenSound s (s.threads t)

/-- An empty cache is coherent. -/
theorem coherent_init (ttlSeconds now : ℚ) : Coherent (State.init ttlSeconds now : State Call κ) where
  invalidated_committed := by simp [State.init]
  item_le := by simp [State.init, TTLCache.new]
  item_current := by simp [State.init, TTLCache.new]
  token_sound := fun _ => trivial

namespace Coherent

/-- Moving a thread keeps the invariant when the new program counter is sound. -/
theorem setThread {s : State Call κ} (h : Coherent s) {t : ℕ} {th : Thread Call}
    (hth : TokenSound s th) : Coherent (s.setThread t th) where
  invalidated_committed := h.invalidated_committed
  item_le := h.item_le
  item_current := h.item_current
  token_sound := by
    intro t'
    simp only [State.setThread, Function.update_apply]
    split
    · exact hth
    · exact h.token_sound t'

/-- The invariant does not read the registry, the clock or the worker pool. -/
theorem registry {s : State Call κ} (h : Coherent s) (now : ℚ) (refreshing : κ → Bool)
    (keyLock : κ → Option ℕ) (accepting : Bool) :
    Coherent { s with
      now := now, refreshing := refreshing, keyLock := keyLock, accepting := accepting } where
  invalidated_committed := h.invalidated_committed
  item_le := h.item_le
  item_current := h.item_current
  token_sound := h.token_sound

/-- A cache of the same generation may replace the cache if each of its items is an old one or
observed every invalidated run. -/
theorem replaceCache {s : State Call κ} (h : Coherent s) {c : TTLCache κ (Body Call)}
    (hgen : c.generation = s.cache.generation)
    (hitem : ∀ k i, c.items k = some i →
      s.cache.items k = some i ∨ i.generation = s.cache.generation ∧ Observes s i.value) :
    Coherent { s with cache := c } where
  invalidated_committed := h.invalidated_committed
  item_le := by
    intro k i hi
    rcases hitem k i hi with hold | ⟨hg, -⟩
    · exact hgen ▸ h.item_le k i hold
    · exact hgen ▸ hg.le
  item_current := by
    intro k i hi hg
    rcases hitem k i hi with hold | ⟨-, hobs⟩
    · exact h.item_current k i hold (hg.trans hgen)
    · exact hobs
  token_sound := by
    intro t
    have ht := h.token_sound t
    revert ht
    show TokenSound s (s.threads t) → TokenSound { s with cache := c } (s.threads t)
    cases s.threads t <;> simp [TokenSound, hgen, Observes]

/-- Looking up keeps it coherent. -/
theorem getEntry [DecidableEq κ] {s : State Call κ} (h : Coherent s) (k : κ) :
    Coherent { s with cache := (s.cache.getEntry s.now k).2 } :=
  h.replaceCache (TTLCache.generation_getEntry _ _ _) fun _ _ hi =>
    Or.inl (TTLCache.items_getEntry hi)

/-- So does storing a value that has observed every invalidated run. -/
theorem put [DecidableEq κ] {s : State Call κ} (h : Coherent s) (k : κ) {body : Body Call}
    (hbody : Observes s body) : Coherent { s with cache := s.cache.put s.now k body } := by
  refine h.replaceCache (TTLCache.generation_put _ _ _ _) fun k' i hi => ?_
  rcases TTLCache.items_put hi with rfl | hold
  · exact Or.inr ⟨rfl, hbody⟩
  · exact Or.inl hold

/-- A new generation makes every item and every token in flight old. -/
theorem nextGeneration {s : State Call κ} (h : Coherent s) {c : TTLCache κ (Body Call)}
    {invalidated : List ℕ} (hinv : ∀ r ∈ invalidated, r ∈ s.committed)
    (hgen : c.generation = s.cache.generation + 1)
    (hitem : ∀ k i, c.items k = some i → s.cache.items k = some i) :
    Coherent { s with cache := c, invalidated := invalidated } where
  invalidated_committed := hinv
  item_le := by
    intro k i hi
    have := h.item_le k i (hitem k i hi)
    show i.generation ≤ c.generation
    omega
  item_current := by
    intro k i hi hg
    -- an old item cannot belong to the new generation
    have hle := h.item_le k i (hitem k i hi)
    have hg' : i.generation = c.generation := hg
    omega
  token_sound := by
    intro t
    have ht := h.token_sound t
    revert ht
    show TokenSound s (s.threads t) →
      TokenSound { s with cache := c, invalidated := invalidated } (s.threads t)
    cases s.threads t <;> simp only [TokenSound, hgen, imp_self] <;> omega

/-- A commit adds to the database state only. -/
theorem commit {s : State Call κ} (h : Coherent s) (r : ℕ) :
    Coherent { s with committed := r :: s.committed } where
  invalidated_committed := fun r' hr' => List.mem_cons_of_mem _ (h.invalidated_committed r' hr')
  item_le := h.item_le
  item_current := h.item_current
  token_sound := h.token_sound

/-- A new database read observed every invalidated run. -/
theorem observes_read {s : State Call κ} (h : Coherent s) (call : Call) :
    Observes s ⟨call, s.committed⟩ := h.invalidated_committed

end Coherent

/-- A look-up reads no generation. -/
theorem tokenSound_afterLookup (s : State Call κ) (call : Call) (r : Option (Body Call × Bool)) :
    TokenSound s (afterLookup call r) := by
  rcases r with _ | ⟨value, _ | _⟩ <;> trivial

/-- Nor does the second one. -/
theorem tokenSound_afterRecheck (s : State Call κ) (call : Call) (r : Option (Body Call × Bool)) :
    TokenSound s (afterRecheck call r) := by
  rcases r with _ | ⟨value, _⟩ <;> trivial

section Runs

variable [DecidableEq κ] (key : Call → κ) (fresh : Call → Bool)

/-! ## Runs

The background path needs no condition. The inline path does, and the condition is exact: the state right
after a `put` that violates it has a hit that is reported as current and misses a run.
-/

/-- The condition on a step: a value put by the inline path was computed from a database state that
contains every ingest run invalidated so far, so no run both committed and completed its `invalidate`
between the computation's database read and this `put`. -/
def PutObserves (s : State Call κ) : Action Call → Prop
  | .put t => ∀ call body, s.threads t = .computed call body → Observes s body
  | _ => True

/-- One guarded step keeps the invariant. -/
theorem Coherent.step {s s' : State Call κ} {a : Action Call} (h : Coherent s)
    (hok : PutObserves s a) (hstep : step key fresh s a = some s') : Coherent s' := by
  cases Step.of_step hstep with
  | request => exact h.setThread (by split <;> trivial)
  | getEntry => exact (h.getEntry _).setThread (tokenSound_afterLookup _ _ _)
  | registered => exact h.setThread trivial
  | register => exact (h.registry s.now _ s.keyLock s.accepting).setThread trivial
  | readGeneration => exact h.setThread (le_refl s.cache.generation)
  | @submit t j call value g hth =>
    have hg : g ≤ s.cache.generation := by
      simpa only [hth, TokenSound] using h.token_sound t
    have hdone : TokenSound s (.done call (some value)) := trivial
    exact (h.setThread hdone).setThread hg
  | refuse => exact h.setThread trivial
  | unregister => exact (h.registry s.now _ s.keyLock s.accepting).setThread trivial
  | unregisterRefused => exact (h.registry s.now _ s.keyLock s.accepting).setThread trivial
  | lock => exact (h.registry s.now s.refreshing _ s.accepting).setThread trivial
  | recheck => exact (h.getEntry _).setThread (tokenSound_afterRecheck _ _ _)
  | @start t call g hth =>
    have hg : g ≤ s.cache.generation := by
      simpa only [hth, TokenSound] using h.token_sound t
    exact h.setThread hg
  | readBypass => exact h.setThread trivial
  | readCompute => exact h.setThread trivial
  | @readRefresh t call g hth =>
    have hg : g ≤ s.cache.generation := by
      simpa only [hth, TokenSound] using h.token_sound t
    -- the token was read before this database read, so every run it covers had committed
    exact h.setThread ⟨hg, fun _ => h.observes_read call⟩
  | raiseBypass => exact h.setThread trivial
  | raiseCompute => exact h.setThread trivial
  | raiseRefresh => exact h.setThread trivial
  | @put t call body hth => exact (h.put _ (hok call body hth)).setThread trivial
  -- the token is still the generation of the cache, so no run was invalidated after the read
  | @publish t call g body hth =>
    have hsound : g ≤ s.cache.generation ∧ (g = s.cache.generation → Observes s body) := by
      simpa only [hth, TokenSound] using h.token_sound t
    refine Coherent.setThread ?_ trivial
    unfold TTLCache.putIfGeneration
    split
    · exact h
    · rename_i hg
      exact h.put _ (hsound.2 (not_not.mp hg))
  | unlock => exact (h.registry s.now s.refreshing _ s.accepting).setThread trivial
  | finish => exact h.setThread trivial
  | @setClock now => exact h.registry now s.refreshing s.keyLock s.accepting
  | @commit r => exact h.commit r
  -- the run has committed before it invalidates
  | @invalidate r hr =>
    refine h.nextGeneration ?_ rfl fun _ _ hi => hi
    intro r' hr'
    rcases List.mem_cons.mp hr' with rfl | hr'
    · exact hr.1
    · exact h.invalidated_committed r' hr'
  | clear => exact h.nextGeneration h.invalidated_committed rfl fun _ _ hi => by simp at hi
  | startWorkers => exact h.registry s.now s.refreshing s.keyLock true
  | stopWorkers => exact h.registry s.now s.refreshing s.keyLock false

/-- `get_entry` reports as current only values that observed every invalidated run. -/
def FreshHits (s : State Call κ) : Prop :=
  ∀ k value, (s.cache.getEntry s.now k).1 = some (value, false) → Observes s value

/-- In a coherent state every fresh hit has observed the invalidated runs. -/
theorem Coherent.freshHits {s : State Call κ} (h : Coherent s) : FreshHits s := by
  intro k value hhit
  obtain ⟨i, hi, rfl, hcur⟩ := TTLCache.item_of_getEntry hhit
  exact h.item_current k i hi (by simpa using hcur.symm)

/-- In every run, from an empty cache, whose inline `put`s store values that observed the runs
invalidated so far, every hit reported as current observed every invalidated ingest run. -/
theorem freshHits_of_run {ttlSeconds now : ℚ} {as : List (Action Call)} {s : State Call κ}
    (hok : Runs.Guarded (step key fresh) PutObserves (State.init ttlSeconds now) as)
    (hrun : Runs.run (step key fresh) (State.init ttlSeconds now) as = some s) : FreshHits s :=
  (Runs.run_preserves_of_guarded (fun _ _ _ h hok hstep => h.step key fresh hok hstep)
    (coherent_init ttlSeconds now) hok hrun).freshHits

/-- The condition is exact: an inline `put` that violates it makes the cache report its value as
current right away. -/
theorem not_freshHits_of_put {s s' : State Call κ} {t : ℕ} (httl : 0 ≤ s.cache.ttlSeconds)
    (hput : ¬ PutObserves s (.put t)) (hstep : step key fresh s (.put t) = some s') :
    ¬ FreshHits s' := by
  simp only [PutObserves, not_forall] at hput
  obtain ⟨call, body, hth, hbody⟩ := hput
  simp only [step, hth, Option.some.injEq] at hstep
  subst hstep
  intro hfresh
  exact hbody (hfresh (key call) body (TTLCache.getEntry_put httl s.now (key call) body))

end Runs

/-- One cold request whose database read comes before an ingest run commits, and whose `put` comes
after that run's `invalidate`. -/
def racingColdRequest : List (Action Unit) :=
  [.request 0 (), .getEntry 0, .lock 0, .recheck 0, .readDatabase 0, .commit 1, .invalidate 1, .put 0]

/-- The same request with its database read after the commit. -/
def lateColdRequest : List (Action Unit) :=
  [.request 0 (), .getEntry 0, .lock 0, .recheck 0, .commit 1, .readDatabase 0, .invalidate 1, .put 0]

/-- The cache reports as current a value that was read before the commit of an invalidated run. -/
theorem racingColdRequest_not_freshHits :
    ∃ s : State Unit Unit,
      Runs.run (step id fun _ => false) (State.init 3600 0) racingColdRequest = some s ∧
        ¬ FreshHits s := by
  refine ⟨_, rfl, fun hfresh => ?_⟩
  have hhit := hfresh () ⟨(), []⟩ (TTLCache.getEntry_put (by decide +kernel) 0 () _)
  exact absurd (hhit 1 (by decide)) (by decide)

/-- The run of `lateColdRequest` meets the condition at every step and ends with fresh hits. -/
theorem lateColdRequest_freshHits :
    ∃ s : State Unit Unit,
      Runs.run (step id fun _ => false) (State.init 3600 0) lateColdRequest = some s ∧
        FreshHits s := by
  have hok : Runs.Guarded (step id fun _ => false) PutObserves
      (State.init 3600 0 : State Unit Unit) lateColdRequest := by
    -- only the last action, the `put`, carries an obligation
    iterate 7 refine ⟨trivial, fun _ h => ?_⟩; cases h
    refine ⟨fun call body hth => ?_, fun _ _ => trivial⟩
    cases hth
    show ∀ r ∈ [1], r ∈ [1]
    decide
  exact ⟨_, rfl, freshHits_of_run id (fun _ => false) hok rfl⟩

end Ghpulse.Cache
