import Ghpulse.Cache.Threads
import Ghpulse.Library.Ownership

/-!
# Single flight

The key locks and the set `_refreshing` are tables of owners: a key lock belongs to the one thread
between `lock` and `unlock`, and a key in `_refreshing` to the one thread that is inside of
`_schedule_refresh` for it or to the one job that this thread has submitted. Every way out of a
refresh, its failure and its refusal included, gives the key back.

What is claimed about the lock and the registry is said of owners here, and comes from `Tracks`: a table
and what the threads hold agree, so that two threads that hold one key are one thread. The release of a
key is a statement about what a thread can do alone, whatever the others do: no fairness is assumed.

Reference: `backend/cache.py` (`cache_response.wrapper`, `_schedule_refresh`, `submit_refresh`).
-/

open Ownership

namespace Ghpulse.Cache

variable {Call κ : Type}

/-! ## Who owns what

A program counter tells what its thread holds. The two readings differ in one place: a thread hands the
key in `_refreshing` over to the job it submits, while a lock never changes hands.
-/

/-- The call whose key lock a thread holds. -/
def Thread.locked? : Thread Call → Option Call
  | .recheck call | .compute call | .computed call _ | .unlock call _ => some call
  | _ => none

/-- The call whose key a thread keeps in `_refreshing`: it is inside of `_schedule_refresh`, or it is
an accepted job that has not finished. -/
def Thread.registered? : Thread Call → Option Call
  | .token call _ | .submit call _ _ | .refused call _ | .queued call _ | .refresh call _
  | .refreshed call _ _ | .discard call => some call
  | _ => none

/-- The call that a thread computes inline. -/
def Thread.inline? : Thread Call → Option Call
  | .compute call | .computed call _ => some call
  | _ => none

/-- A thread that computes inline holds the lock of its key. -/
theorem Thread.locked?_of_inline? {th : Thread Call} {call : Call} (h : th.inline? = some call) :
    th.locked? = some call := by
  cases th <;> first | exact h | cases h

/-- What the threads hold, of the resources that `f` reads off a thread. -/
def State.held (key : Call → κ) (s : State Call κ) (f : Thread Call → Option Call) (t : ℕ) :
    Option κ := (f (s.threads t)).map key

variable (key : Call → κ)

/-- Moving a thread moves what it holds. -/
theorem State.held_setThread (s : State Call κ) (f : Thread Call → Option Call) (t : ℕ)
    (th : Thread Call) :
    (s.setThread t th).held key f = Function.update (s.held key f) t ((f th).map key) := by
  funext t'
  by_cases h : t' = t
  · subst h
    rw [Function.update_self, State.held, State.threads_setThread_self]
  · rw [Function.update_of_ne h, State.held, State.threads_setThread_of_ne s h, State.held]

/-- A thread that holds the same as before changes nothing. -/
theorem State.held_moved {s : State Call κ} {t : ℕ} {th th' : Thread Call} (hth : s.threads t = th)
    {f : Thread Call → Option Call} (h : f th' = f th) :
    (s.setThread t th').held key f = s.held key f := by
  rw [State.held_setThread, h, ← hth]
  exact Function.update_eq_self t (s.held key f)

/-! ## The invariant

Each step takes a key, gives one back, hands one over, or leaves the tables alone; these are the five
lemmas before `step`.
-/

/-- The lock table and the registry agree with the threads. -/
structure SingleFlight (s : State Call κ) : Prop where
  locks : Tracks s.keyLock (s.held key Thread.locked?)
  registry : ∃ owner, (∀ k, s.refreshing k = (owner k).isSome) ∧
    Tracks owner (s.held key Thread.registered?)

/-- Before the first request nothing is held. -/
theorem singleFlight_init (ttlSeconds now : ℚ) :
    SingleFlight key (State.init ttlSeconds now : State Call κ) where
  locks := tracks_empty
  registry := ⟨fun _ => none, fun _ => rfl, tracks_empty⟩

namespace SingleFlight

variable {key} {s : State Call κ}

/-- The cache, the clock and the ingest runs do not matter. -/
theorem congr (h : SingleFlight key s) {s' : State Call κ} (hlock : s'.keyLock = s.keyLock)
    (hrefreshing : s'.refreshing = s.refreshing) (hthreads : s'.threads = s.threads) :
    SingleFlight key s' := by
  obtain ⟨hlocks, hregistry⟩ := h
  have hheld (f : Thread Call → Option Call) : s'.held key f = s.held key f := by
    unfold State.held
    rw [hthreads]
  constructor
  · rwa [hlock, hheld]
  · rwa [hrefreshing, hheld]

/-- The cache itself plays no part. -/
theorem setCache (h : SingleFlight key s) (c : TTLCache κ (Body Call)) :
    SingleFlight key { s with cache := c } := h.congr rfl rfl rfl

/-- A thread that keeps what it holds may go on. -/
theorem moved (h : SingleFlight key s) {t : ℕ} {th th' : Thread Call} (hth : s.threads t = th)
    (hlocked : th'.locked? = th.locked?) (hregistered : th'.registered? = th.registered?) :
    SingleFlight key (s.setThread t th') where
  locks := by
    rw [State.held_moved key hth hlocked]
    exact h.locks
  registry := by
    rw [State.held_moved key hth hregistered]
    exact h.registry

/-- One thread at a time holds the lock of a key. -/
theorem locked_unique (h : SingleFlight key s) {t t' : ℕ} {call call' : Call}
    (ht : (s.threads t).locked? = some call) (ht' : (s.threads t').locked? = some call')
    (hkey : key call = key call') : t = t' := by
  refine h.locks.unique (k := key call) ?_ ?_
  · rw [State.held, ht, Option.map_some]
  · rw [State.held, ht', Option.map_some, hkey]

/-- One thread at a time keeps a key in `_refreshing`. -/
theorem registered_unique (h : SingleFlight key s) {t t' : ℕ} {call call' : Call}
    (ht : (s.threads t).registered? = some call) (ht' : (s.threads t').registered? = some call')
    (hkey : key call = key call') : t = t' := by
  obtain ⟨owner, -, htracks⟩ := h.registry
  refine htracks.unique (k := key call) ?_ ?_
  · rw [State.held, ht, Option.map_some]
  · rw [State.held, ht', Option.map_some, hkey]

/-- A key is in `_refreshing` exactly when some thread keeps it there. -/
theorem refreshing_iff (h : SingleFlight key s) (k : κ) : s.refreshing k = true ↔
    ∃ t call, (s.threads t).registered? = some call ∧ key call = k := by
  obtain ⟨owner, howner, htracks⟩ := h.registry
  rw [howner, Option.isSome_iff_exists]
  refine exists_congr fun t => (htracks k t).trans ?_
  rw [State.held, Option.map_eq_some_iff]

variable [DecidableEq κ] {fresh : Call → Bool}

/-- A thread takes the free lock of its key. -/
theorem lock (h : SingleFlight key s) {t : ℕ} {th th' : Thread Call} {call : Call}
    (hth : s.threads t = th) (hfree : s.keyLock (key call) = none) (hlocked : th.locked? = none)
    (hlocked' : th'.locked? = some call) (hregistered : th'.registered? = th.registered?) :
    SingleFlight key ({ s with
      keyLock := Function.update s.keyLock (key call) (some t) }.setThread t th') where
  locks := by
    rw [State.held_setThread, hlocked']
    apply h.locks.acquire hfree
    rw [State.held, hth, hlocked, Option.map_none]
  registry := by
    have hregistry := h.registry
    rw [← State.held_moved key hth hregistered] at hregistry
    exact hregistry

/-- The holder of a lock gives it back. -/
theorem unlock (h : SingleFlight key s) {t : ℕ} {th th' : Thread Call} {call : Call}
    (hth : s.threads t = th) (hlocked : th.locked? = some call) (hlocked' : th'.locked? = none)
    (hregistered : th'.registered? = th.registered?) :
    SingleFlight key ({ s with
      keyLock := Function.update s.keyLock (key call) none }.setThread t th') where
  locks := by
    rw [State.held_setThread, hlocked']
    apply h.locks.release
    rw [State.held, hth, hlocked, Option.map_some]
  registry := by
    have hregistry := h.registry
    rw [← State.held_moved key hth hregistered] at hregistry
    exact hregistry

/-- A thread adds a key that is not in `_refreshing`. -/
theorem register (h : SingleFlight key s) {t : ℕ} {th th' : Thread Call} {call : Call}
    (hth : s.threads t = th) (hfree : s.refreshing (key call) = false)
    (hregistered : th.registered? = none) (hregistered' : th'.registered? = some call)
    (hlocked : th'.locked? = th.locked?) :
    SingleFlight key ({ s with
      refreshing := Function.update s.refreshing (key call) true }.setThread t th') where
  locks := by
    have hlocks := h.locks
    rw [← State.held_moved key hth hlocked] at hlocks
    exact hlocks
  registry := by
    obtain ⟨owner, howner, htracks⟩ := h.registry
    refine ⟨Function.update owner (key call) (some t), marked_update howner (key call) (some t), ?_⟩
    rw [State.held_setThread, hregistered']
    apply htracks.acquire
    · rwa [howner, Option.isSome_eq_false_iff, Option.isNone_iff_eq_none] at hfree
    · rw [State.held, hth, hregistered, Option.map_none]

/-- The thread that keeps a key in `_refreshing` discards it. -/
theorem unregister (h : SingleFlight key s) {t : ℕ} {th th' : Thread Call} {call : Call}
    (hth : s.threads t = th) (hregistered : th.registered? = some call)
    (hregistered' : th'.registered? = none) (hlocked : th'.locked? = th.locked?) :
    SingleFlight key ({ s with
      refreshing := Function.update s.refreshing (key call) false }.setThread t th') where
  locks := by
    have hlocks := h.locks
    rw [← State.held_moved key hth hlocked] at hlocks
    exact hlocks
  registry := by
    obtain ⟨owner, howner, htracks⟩ := h.registry
    refine ⟨Function.update owner (key call) none, marked_update howner (key call) none, ?_⟩
    rw [State.held_setThread, hregistered']
    apply htracks.release
    rw [State.held, hth, hregistered, Option.map_some]

/-- A thread hands its key over to the job it submits. -/
theorem submit (h : SingleFlight key s) {t j : ℕ} {call : Call} {value : Body Call} {generation : ℕ}
    (hth : s.threads t = .submit call value generation) (hidle : s.threads j = .idle) :
    SingleFlight key ((s.setThread t (.done call (some value))).setThread j
      (.queued call generation)) where
  locks := by
    -- the submitting thread is not idle, so the job is another one
    have hne : j ≠ t := by
      rintro rfl
      rw [hth] at hidle
      cases hidle
    have hj : (s.setThread t (.done call (some value))).threads j = .idle := by
      rw [State.threads_setThread_of_ne s hne, hidle]
    have hqueued : ((s.setThread t (.done call (some value))).setThread j
        (.queued call generation)).held key Thread.locked? =
        (s.setThread t (.done call (some value))).held key Thread.locked? :=
      State.held_moved key hj rfl
    have hdone : (s.setThread t (.done call (some value))).held key Thread.locked? =
        s.held key Thread.locked? := State.held_moved key hth rfl
    rw [hqueued, hdone]
    exact h.locks
  registry := by
    obtain ⟨owner, howner, htracks⟩ := h.registry
    have ht : s.held key Thread.registered? t = some (key call) := by
      rw [State.held, hth]
      rfl
    have hj : s.held key Thread.registered? j = none := by
      rw [State.held, hidle]
      rfl
    refine ⟨Function.update owner (key call) (some j), ?_, ?_⟩
    · intro k
      show s.refreshing k = _
      by_cases hk : k = key call
      · rw [hk, Function.update_self, howner, (htracks _ t).mpr ht]
        rfl
      · rw [Function.update_of_ne hk, howner]
    · rw [State.held_setThread, State.held_setThread]
      exact htracks.handOver ht hj

/-- Every step keeps the tables and the threads in agreement. -/
theorem step {s' : State Call κ} {a : Action Call} (h : SingleFlight key s)
    (hstep : step key fresh s a = some s') : SingleFlight key s' := by
  cases Step.of_step hstep with
  | request hth => exact h.moved hth (by split <;> rfl) (by split <;> rfl)
  | getEntry hth =>
    refine (h.setCache _).moved hth ?_ ?_
    all_goals rcases (s.cache.getEntry s.now _).1 with _ | ⟨value, _ | _⟩ <;> rfl
  | recheck hth =>
    refine (h.setCache _).moved hth ?_ ?_
    all_goals rcases (s.cache.getEntry s.now _).1 with _ | ⟨value, stale⟩ <;> rfl
  | register hth hkey => exact h.register hth hkey rfl rfl rfl
  | unregisterRefused hth => exact h.unregister hth rfl rfl rfl
  | unregister hth => exact h.unregister hth rfl rfl rfl
  | submit hth hidle => exact h.submit hth hidle
  | lock hth hfree => exact h.lock hth hfree rfl rfl rfl
  | unlock hth => exact h.unlock hth rfl rfl rfl
  | put hth => exact (h.setCache _).moved hth rfl rfl
  | publish hth => exact (h.setCache _).moved hth rfl rfl
  | raiseBypass hth => rcases hth with hth | ⟨b, hth⟩ <;> exact h.moved hth rfl rfl
  | raiseCompute hth => rcases hth with hth | ⟨b, hth⟩ <;> exact h.moved hth rfl rfl
  | raiseRefresh hth => rcases hth with hth | ⟨b, hth⟩ <;> exact h.moved hth rfl rfl
  | registered hth | readGeneration hth | refuse hth | start hth | readBypass hth | readCompute hth
  | readRefresh hth | finish hth => exact h.moved hth rfl rfl
  | setClock | commit | invalidate | clear | startWorkers | stopWorkers =>
    exact h.congr rfl rfl rfl

end SingleFlight

/-! ## No key stays in the registry

From every place inside of `_schedule_refresh` or its job there is a way out that needs no other thread: a
refusal, or a failure of the call, and then the `discard` in `finally`.
-/

section Release

variable {key} [DecidableEq κ] {fresh : Call → Bool} {s : State Call κ}

/-- The actions by which a thread alone leaves `_schedule_refresh` or its job. -/
def ownActions (t : ℕ) : List (Action Call) :=
  [.readGeneration t, .refuse t, .start t, .raise t, .unregister t]

variable (key fresh) in
/-- A thread alone can bring about that a key is not in `_refreshing`. -/
def Releases (s : State Call κ) (t : ℕ) (k : κ) : Prop :=
  ∃ as s', (∀ a ∈ as, a ∈ ownActions t) ∧ Runs.run (step key fresh) s as = some s' ∧
    s'.refreshing k = false

/-- A key that is not refreshed is released. -/
theorem Releases.of_free {t : ℕ} {k : κ} (h : s.refreshing k = false) : Releases key fresh s t k :=
  ⟨[], s, by simp, rfl, h⟩

/-- A key that is released after a step of its thread is released. -/
theorem Releases.of_step {m : State Call κ} {t : ℕ} {k : κ} {a : Action Call} (ha : a ∈ ownActions t)
    (hstep : step key fresh s a = some m) (h : Releases key fresh m t k) :
    Releases key fresh s t k := by
  obtain ⟨as, s', hown, hrun, hfree⟩ := h
  exact ⟨a :: as, s', List.forall_mem_cons.mpr ⟨ha, hown⟩, Runs.run_cons.mpr ⟨m, hstep, hrun⟩, hfree⟩

/-- Whoever keeps a key in `_refreshing` can be refused or fail, and then takes it out. -/
theorem releases {t : ℕ} {call : Call} (ht : (s.threads t).registered? = some call) :
    Releases key fresh s t (key call) := by
  -- the last step of each way out, and from there backwards
  have hdiscard {m : State Call κ} (hm : m.threads t = .discard call) :
      Releases key fresh m t (key call) := by
    have hstep : step key fresh m (.unregister t) =
        some ({ m with refreshing := Function.update m.refreshing (key call) false }.setThread t
          (.done call none)) := by
      simp only [step, hm]
    refine Releases.of_step (by simp [ownActions]) hstep (Releases.of_free ?_)
    exact Function.update_self (key call) false m.refreshing
  have hrefused {m : State Call κ} {value : Body Call} (hm : m.threads t = .refused call value) :
      Releases key fresh m t (key call) := by
    have hstep : step key fresh m (.unregister t) =
        some ({ m with refreshing := Function.update m.refreshing (key call) false }.setThread t
          (.done call (some value))) := by
      simp only [step, hm]
    refine Releases.of_step (by simp [ownActions]) hstep (Releases.of_free ?_)
    exact Function.update_self (key call) false m.refreshing
  have hsubmit {m : State Call κ} {value : Body Call} {g : ℕ} (hm : m.threads t = .submit call value g) :
      Releases key fresh m t (key call) := by
    have hstep : step key fresh m (.refuse t) = some (m.setThread t (.refused call value)) := by
      simp only [step, hm]
    exact .of_step (by simp [ownActions]) hstep (hrefused (State.threads_setThread_self m t _))
  have hrefresh {m : State Call κ} {g : ℕ} (hm : m.threads t = .refresh call g) :
      Releases key fresh m t (key call) := by
    have hstep : step key fresh m (.raise t) = some (m.setThread t (.discard call)) := by
      simp only [step, hm]
    exact .of_step (by simp [ownActions]) hstep (hdiscard (State.threads_setThread_self m t _))
  -- by the place of the thread; those that keep no key are excluded at the end
  cases hth : s.threads t with
  | discard c =>
    rw [hth] at ht
    cases ht
    exact hdiscard hth
  | refused c value =>
    rw [hth] at ht
    cases ht
    exact hrefused hth
  | submit c value g =>
    rw [hth] at ht
    cases ht
    exact hsubmit hth
  | token c value =>
    rw [hth] at ht
    cases ht
    have hstep : step key fresh s (.readGeneration t) =
        some (s.setThread t (.submit call value s.cache.generation)) := by
      simp only [step, hth]
    exact .of_step (by simp [ownActions]) hstep (hsubmit (State.threads_setThread_self s t _))
  | refresh c g =>
    rw [hth] at ht
    cases ht
    exact hrefresh hth
  | refreshed c g body =>
    rw [hth] at ht
    cases ht
    have hstep : step key fresh s (.raise t) = some (s.setThread t (.discard call)) := by
      simp only [step, hth]
    exact .of_step (by simp [ownActions]) hstep (hdiscard (State.threads_setThread_self s t _))
  | queued c g =>
    rw [hth] at ht
    cases ht
    have hstep : step key fresh s (.start t) = some (s.setThread t (.refresh call g)) := by
      simp only [step, hth]
    exact .of_step (by simp [ownActions]) hstep (hrefresh (State.threads_setThread_self s t _))
  | idle | bypass | bypassRead | lookup | schedule | acquire | recheck | compute | computed | unlock
  | done =>
    rw [hth] at ht
    cases ht

/-- A stale hit on a key that nobody refreshes adds it to `_refreshing`. -/
theorem SingleFlight.can_register (h : SingleFlight key s) {t : ℕ} {call : Call} {value : Body Call}
    (hth : s.threads t = .schedule call value)
    (hfree : ∀ t' call', (s.threads t').registered? = some call' → key call' ≠ key call) :
    ∃ s', Cache.step key fresh s (.register t) = some s' ∧ s'.threads t = .token call value := by
  have hkey : s.refreshing (key call) = false := by
    rw [← Bool.not_eq_true, h.refreshing_iff]
    rintro ⟨t', call', ht', heq⟩
    exact hfree t' call' ht' heq
  have hstep : Cache.step key fresh s (.register t) =
      some ({ s with refreshing := Function.update s.refreshing (key call) true }.setThread t
        (.token call value)) := by
    simp only [Cache.step, hth, hkey, Bool.false_eq_true, if_false]
  exact ⟨_, hstep, State.threads_setThread_self _ t _⟩

end Release

end Ghpulse.Cache
