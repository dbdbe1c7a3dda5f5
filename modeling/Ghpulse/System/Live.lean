import Ghpulse.Web.Query
import Ghpulse.Web.Transitions

/-!
# From an ingest to the page

The page, the response cache and the ingest runs as one system. A request of the page becomes a thread of
the server when it arrives, and the page receives what the thread returns; other clients make requests of
their own. `run_ingest` broadcasts `ingest_done` after its commit, so that the page hears of a run only after
the run has committed; what the page hears may come late, more than once, or not at all.

The sync status that the route lays over a body is left out.

References: `src/app.jsx` (`createDashboardRequestCoordinator`, `App`); `backend/api_dashboard.py`
(`dashboard_route`); `backend/cache.py` (`cache_response`); `backend/ingest.py` (`_post_commit`).
-/

open Python Ghpulse.Cache Ghpulse.Web Ghpulse.Web.Coordinator

namespace Ghpulse.System

/-! ## The system

The two programs keep their own states, and meet in three steps: a request arrives, its answer is
received, and an announcement is heard. Between a step of one and the next step of the other anything may
happen.
-/

/-- A body of the dashboard. -/
abbrev Dashboard := Body (KeywordCall Endpoint)

/-- The server, the page, and the thread that each request of the page has become. -/
structure Live where
  server : Cache.State (KeywordCall Endpoint) Str
  page : Coordinator.State Str Dashboard
  thread : ℕ → Option ℕ

namespace Live

/-- A cold server, and a page that has just been opened. -/
def initial (ttlSeconds now : ℚ) : Live := ⟨.init ttlSeconds now, .initial, fun _ => none⟩

inductive Action where
  /-- Threads of the server, other clients and ingest runs. -/
  | server (a : Cache.Action (KeywordCall Endpoint))
  /-- The page, but for what it receives. -/
  | page (a : Coordinator.Action Str Dashboard)
  /-- Request `id` of the page arrives, and becomes thread `t`. -/
  | arrive (id t : ℕ)
  /-- The page receives what the thread returned. -/
  | receive (id : ℕ)
  /-- Event source `k` of the page hears that ingest run `r` is done. -/
  | hear (k r : ℕ)

/-- An action of the page that receives nothing from the server. -/
def ownAction : Coordinator.Action Str Dashboard → Bool
  | .settle _ (.inl _) => false
  | .deliver _ .ingestDone _ => false
  | _ => true

/-- The request that the page has sent. -/
def sent (s : Live) (id : ℕ) : Option (ℕ × Selection Str × Bool) :=
  s.page.traffic.fetches.find? fun f => decide (f.1 = id)

variable (fw : Framework) (printable : CodePoint → Bool) (isGuest : Bool)

/-- One step. -/
def step (s : Live) : Action → Option Live
  | .server a => (serve printable Endpoint.qualname s.server a).map fun server => { s with server := server }
  | .page a =>
    if ownAction a then (Coordinator.step texts s.page a).map fun page => { s with page := page } else none
  | .arrive id t =>
    (sent s id).bind fun f =>
      (fw.route isGuest (buildDashboardQuery f.2.1.range f.2.1.repository f.2.2)).bind fun call =>
        (serve printable Endpoint.qualname s.server (.request t call)).map fun server =>
          { s with server := server, thread := Function.update s.thread id (some t) }
  | .receive id =>
    (s.thread id).bind fun t =>
      match s.server.threads t with
      | .done _ (some body) =>
        (Coordinator.settle s.page id (.inl body)).map fun page => { s with page := page }
      | _ => none
  | .hear k r =>
    if r ∈ s.server.committed then
      (Coordinator.deliver texts s.page k .ingestDone none).map fun page => { s with page := page }
    else none

end Live

/-! ## Past the cache

The rank of a fresh request: it has not read yet, it has read a body that observed the commit, or it has
returned one. In the first case the commit is still there to be read.
-/

/-- A thread that serves a call past the cache, after the commit of a run. -/
inductive Bypassing (r : ℕ) (call : KeywordCall Endpoint) : Thread (KeywordCall Endpoint) → Prop where
  | bypass : Bypassing r call (.bypass call)
  | read (body : Dashboard) (hcall : body.call = call) (hr : r ∈ body.observed) :
    Bypassing r call (.bypassRead call body)
  | returned (body : Dashboard) (hcall : body.call = call) (hr : r ∈ body.observed) :
    Bypassing r call (.done call (some body))
  | raised : Bypassing r call (.done call none)

variable {fw : Framework} {printable : CodePoint → Bool} {isGuest : Bool}
variable {server server' : Cache.State (KeywordCall Endpoint) Str} {r t : ℕ} {call : KeywordCall Endpoint}

/-- A bypassing request goes on while other threads move. -/
theorem Bypassing.setThread (h : Bypassing r call (server.threads t)) {t' : ℕ}
    {th : Thread (KeywordCall Endpoint)}
    (hmove : Bypassing r call (server.threads t') → Bypassing r call th) :
    Bypassing r call ((server.setThread t' th).threads t) := by
  by_cases ht : t = t'
  · subst ht
    rw [State.threads_setThread_self]
    exact hmove h
  · rwa [State.threads_setThread_of_ne server ht]

/-- It reads the heard commit, or still can, after every step of the server. -/
theorem Bypassing.serve (h : Bypassing r call (server.threads t)) (hr : r ∈ server.committed)
    {a : Cache.Action (KeywordCall Endpoint)}
    (hstep : Cache.serve printable Endpoint.qualname server a = some server') :
    Bypassing r call (server'.threads t) := by
  have hother {t' : ℕ} {th th' : Thread (KeywordCall Endpoint)} (hth : server.threads t' = th)
      (hne : ¬ Bypassing r call th) : Bypassing r call ((server.setThread t' th').threads t) :=
    h.setThread fun h' => absurd (hth ▸ h') hne
  rcases serve_cases hstep with hstep | ⟨t', call', -, hidle, rfl⟩
  · cases Step.of_step hstep with
    | request hth => exact hother hth nofun
    | getEntry hth => exact hother hth nofun
    | registered hth => exact hother hth nofun
    | register hth => exact hother hth nofun
    | readGeneration hth => exact hother hth nofun
    -- the worker gets a thread that was idle, so not this one
    | submit hth hidle =>
      have hne : t ≠ _ := fun ht => by
        rw [ht, hidle] at h
        cases h
      rw [State.threads_setThread_of_ne _ hne]
      exact hother hth nofun
    | refuse hth => exact hother hth nofun
    | unregisterRefused hth => exact hother hth nofun
    | unregister hth => exact hother hth nofun
    | lock hth => exact hother hth nofun
    | recheck hth => exact hother hth nofun
    | start hth => exact hother hth nofun
    -- the moment at which the request reads: the commit is among what it observes
    | readBypass hth =>
      refine h.setThread fun h' => ?_
      rw [hth] at h'
      cases h'
      exact .read _ rfl hr
    | readCompute hth => exact hother hth nofun
    | readRefresh hth => exact hother hth nofun
    | raiseBypass hth =>
      refine h.setThread fun h' => ?_
      rcases hth with hth | ⟨body, hth⟩ <;> rw [hth] at h' <;> cases h' <;> exact .raised
    | raiseCompute hth => rcases hth with hth | ⟨body, hth⟩ <;> exact hother hth nofun
    | raiseRefresh hth => rcases hth with hth | ⟨body, hth⟩ <;> exact hother hth nofun
    | put hth => exact hother hth nofun
    | publish hth => exact hother hth nofun
    | unlock hth => exact hother hth nofun
    | finish hth =>
      refine h.setThread fun h' => ?_
      rw [hth] at h'
      cases h' with
      | read _ hcall hr => exact .returned _ hcall hr
    | setClock | commit | invalidate | clear | startWorkers | stopWorkers => exact h
  · exact hother hidle nofun

/-- A commit stays. -/
theorem committed_serve (hr : r ∈ server.committed) {a : Cache.Action (KeywordCall Endpoint)}
    (hstep : Cache.serve printable Endpoint.qualname server a = some server') : r ∈ server'.committed := by
  rcases serve_cases hstep with hstep | ⟨t', call', -, -, rfl⟩
  · cases Step.of_step hstep with
    | commit => exact List.mem_cons_of_mem _ hr
    | _ => exact hr
  · exact hr

/-- A fresh call begins past the cache. -/
theorem bypassing_request (hfresh : call.fresh = true)
    (hstep : Cache.serve printable Endpoint.qualname server (.request t call) = some server') :
    Bypassing r call (server'.threads t) := by
  rcases serve_cases hstep with hstep | ⟨t', call', ha, -, rfl⟩
  · cases Step.of_step hstep with
    | request hth =>
      rw [State.threads_setThread_self, if_pos hfresh]
      exact .bypass
  · cases ha
    rw [State.threads_setThread_self]
    exact .raised

/-! ## The invariant

What is on its way between the page and the server. A fetch of the page that is numbered above `base` was
sent after the announcement, and so is served after the commit.
-/

namespace Live

/-- A body of a fresh call for a selection, which observed a run. -/
def Shows (isGuest : Bool) (r : ℕ) (selection : Selection Str) (body : Dashboard) : Prop :=
  body.call = dashboardCall selection isGuest true ∧ r ∈ body.observed

/-- Requests have numbers of their own, and only what was sent arrives. -/
structure Orderly (s : Live) : Prop where
  numbered : Numbered s.page.traffic
  arrived : ∀ id t, s.thread id = some t → id ≤ s.page.requestId

/-- A request after number `base` that the page can make. -/
def Later (base id : ℕ) (selection : Selection Str) : Prop := base < id ∧ Selectable selection

/-- The fresh requests after number `base` observe run `r`. -/
structure Heard (isGuest : Bool) (base r : ℕ) (s : Live) : Prop where
  committed : r ∈ s.server.committed
  thread : ∀ id t selection, s.thread id = some t → (id, selection, true) ∈ s.page.traffic.fetches →
    Later base id selection → Bypassing r (dashboardCall selection isGuest true) (s.server.threads t)
  answered : Answered (Later base) (Shows isGuest r) s.page.traffic

variable {s s' : Live}

/-- Before the page is opened nothing is sent. -/
theorem orderly_initial (ttlSeconds now : ℚ) : Orderly (initial ttlSeconds now) where
  numbered := numbered_initial
  arrived := fun _ _ h => by cases h

/-- Before anything was sent after number `base`. -/
theorem Orderly.heard (h : Orderly s) (isGuest : Bool) (hr : r ∈ s.server.committed) :
    Heard isGuest s.page.requestId r s where
  committed := hr
  thread := fun id t _ ht _ hlater => absurd (h.arrived id t ht) hlater.1.not_ge
  answered :=
    { resolved := fun _ _ _ _ _ hf hlater => absurd (h.numbered.bounded _ hf) hlater.1.not_ge
      readied := fun _ _ hf hlater => absurd (h.numbered.bounded _ hf) hlater.1.not_ge }

/-- The numbers of the page only grow. -/
theorem requestId_le {received : ℕ → Dashboard → Prop} {t t' : Traffic Str Dashboard}
    (h : Moves received t t') : t.requestId ≤ t'.requestId := by
  cases h with
  | quiet requestId hid => exact hid
  | started => exact Nat.le_succ _
  | settled | handled | readied => exact le_rfl

/-- What was sent under a number was fetched under it. -/
theorem sent_eq_some {id : ℕ} {f : ℕ × Selection Str × Bool} (h : sent s id = some f) :
    f ∈ s.page.traffic.fetches ∧ f.1 = id := by
  have hfound : s.page.traffic.fetches.find? (fun f => decide (f.1 = id)) = some f := h
  exact ⟨List.mem_of_find?_eq_some hfound, by simpa using List.find?_some hfound⟩

/-- The page moves. -/
theorem Orderly.moves {page : Coordinator.State Str Dashboard} {received : ℕ → Dashboard → Prop}
    (h : Orderly s) (hmoves : Moves received s.page.traffic page.traffic) :
    Orderly { s with page := page } where
  numbered := h.numbered.moves hmoves
  arrived := fun id t ht => (h.arrived id t ht).trans (requestId_le hmoves)

/-- Every step of page and server keeps the requests in order. -/
theorem Orderly.step (h : Orderly s) {a : Action} (hstep : step fw printable isGuest s a = some s') :
    Orderly s' := by
  cases a with
  | server a =>
    obtain ⟨server, -, rfl⟩ := Option.map_eq_some_iff.mp hstep
    exact ⟨h.numbered, h.arrived⟩
  | page a =>
    simp only [Live.step, Option.ite_none_right_eq_some, Option.map_eq_some_iff] at hstep
    obtain ⟨-, page, hpage, rfl⟩ := hstep
    exact h.moves (moves_of_step hpage)
  | arrive id t =>
    obtain ⟨f, hsent, hstep⟩ := Option.bind_eq_some_iff.mp hstep
    obtain ⟨call, -, hstep⟩ := Option.bind_eq_some_iff.mp hstep
    obtain ⟨server, -, rfl⟩ := Option.map_eq_some_iff.mp hstep
    refine ⟨h.numbered, fun id' t' ht' => ?_⟩
    dsimp only at ht'
    by_cases hid : id' = id
    · obtain ⟨hmem, hf⟩ := sent_eq_some hsent
      rw [hid, ← hf]
      exact h.numbered.bounded f hmem
    · rw [Function.update_of_ne hid] at ht'
      exact h.arrived id' t' ht'
  | receive id =>
    obtain ⟨t, -, hstep⟩ := Option.bind_eq_some_iff.mp hstep
    split at hstep
    · next call body _ =>
      obtain ⟨page, hpage, rfl⟩ := Option.map_eq_some_iff.mp hstep
      have hsettle : Coordinator.step texts s.page (.settle id (.inl body)) = some page := hpage
      exact h.moves (moves_of_step hsettle)
    · cases hstep
  | hear k r' =>
    simp only [Live.step, Option.ite_none_right_eq_some, Option.map_eq_some_iff] at hstep
    obtain ⟨-, page, hpage, rfl⟩ := hstep
    have hdeliver : Coordinator.step texts s.page (.deliver k .ingestDone none) = some page := hpage
    exact h.moves (moves_of_step hdeliver)

/-- The page moves, and receives only what its fresh requests may show. -/
theorem Heard.moves {base : ℕ} {page : Coordinator.State Str Dashboard} {received : ℕ → Dashboard → Prop}
    (h : Heard isGuest base r s) (horderly : Orderly s)
    (hmoves : Moves received s.page.traffic page.traffic)
    (hreceived : ∀ id body selection, received id body → (id, selection, true) ∈ s.page.traffic.fetches →
      Later base id selection → Shows isGuest r selection body) :
    Heard isGuest base r { s with page := page } := by
  refine ⟨h.committed, fun id t selection ht hf => h.thread id t selection ht ?_,
    h.answered.moves horderly.numbered hmoves hreceived⟩
  dsimp only at hf
  generalize page.traffic = traffic at hmoves hf
  cases hmoves with
  | started => exact mem_fetches_of_le (horderly.arrived id t ht) hf
  | quiet | settled | handled | readied => exact hf

/-- Every step keeps what was heard on its way to the page. -/
theorem Heard.step (hfw : fw.Documented) {base : ℕ} (h : Heard isGuest base r s) (horderly : Orderly s)
    {a : Action} (hstep : step fw printable isGuest s a = some s') : Heard isGuest base r s' := by
  cases a with
  | server a =>
    obtain ⟨server, hserver, rfl⟩ := Option.map_eq_some_iff.mp hstep
    exact ⟨committed_serve h.committed hserver,
      fun id t selection ht hf hlater => (h.thread id t selection ht hf hlater).serve h.committed hserver,
      h.answered⟩
  | page a =>
    simp only [Live.step, Option.ite_none_right_eq_some, Option.map_eq_some_iff] at hstep
    obtain ⟨hown, page, hpage, rfl⟩ := hstep
    refine h.moves horderly (moves_of_step hpage) fun id body _ hreceived => ?_
    rw [hreceived] at hown
    cases hown
  | arrive id t =>
    obtain ⟨⟨number, selection, fresh⟩, hsent, hstep⟩ := Option.bind_eq_some_iff.mp hstep
    obtain ⟨call, hroute, hstep⟩ := Option.bind_eq_some_iff.mp hstep
    obtain ⟨server, hserver, rfl⟩ := Option.map_eq_some_iff.mp hstep
    obtain ⟨hmem, rfl⟩ := sent_eq_some hsent
    refine ⟨committed_serve h.committed hserver, fun id t' selection' ht' hf hlater => ?_, h.answered⟩
    rcases update_eq_some ht' with ⟨rfl, rfl⟩ | ⟨-, hold⟩
    · cases horderly.numbered.unique _ hmem _ hf rfl
      rw [route_buildDashboardQuery hfw hlater.2] at hroute
      cases hroute
      exact bypassing_request (asks_dashboardCall selection isGuest true).fresh hserver
    · exact (h.thread id t' selection' hold hf hlater).serve h.committed hserver
  | receive id =>
    obtain ⟨t, ht, hstep⟩ := Option.bind_eq_some_iff.mp hstep
    split at hstep
    · next call body hthread =>
      obtain ⟨page, hpage, rfl⟩ := Option.map_eq_some_iff.mp hstep
      have hsettle : Coordinator.step texts s.page (.settle id (.inl body)) = some page := hpage
      refine h.moves horderly (moves_of_step hsettle) fun id' body' selection hreceived hf hlater => ?_
      cases hreceived
      have hbypassing := h.thread id t selection ht hf hlater
      rw [hthread] at hbypassing
      cases hbypassing with
      | returned _ hcall hr => exact ⟨hcall, hr⟩
    · cases hstep
  | hear k r' =>
    simp only [Live.step, Option.ite_none_right_eq_some, Option.map_eq_some_iff] at hstep
    obtain ⟨-, page, hpage, rfl⟩ := hstep
    have hdeliver : Coordinator.step texts s.page (.deliver k .ingestDone none) = some page := hpage
    exact h.moves horderly (moves_of_step hdeliver) fun _ _ _ hreceived => by cases hreceived

/-- A request in the log is part of the traffic. -/
theorem mem_fetches {page : Coordinator.State Str Dashboard} {id : ℕ} {selection : Selection Str}
    {fresh : Bool}
    (h : .fetch id selection fresh ∈ page.log) : (id, selection, fresh) ∈ page.traffic.fetches :=
  List.mem_filterMap.mpr ⟨_, h, rfl⟩

/-- So is an answer that is shown. -/
theorem mem_readies {page : Coordinator.State Str Dashboard} {p : Published Str Dashboard}
    (h : .notify p ∈ page.log) (hphase : p.phase = .ready) : p ∈ page.traffic.readies :=
  List.mem_filterMap.mpr ⟨_, h, if_pos hphase⟩

/-- In every run in which the page hears that an ingest run is done: it sends a fresh request for what is
selected, and every body that it publishes for a fresh request from then on was computed for what is selected
after the commit of the run. -/
theorem heard_run_shown (hfw : fw.Documented) {ttlSeconds now : ℚ} {before after : List Action} {k r : ℕ}
    {s m s' : Live} (hrun : Runs.run (step fw printable isGuest) (initial ttlSeconds now) before = some s)
    (hhear : step fw printable isGuest s (.hear k r) = some m)
    (hrest : Runs.run (step fw printable isGuest) m after = some s') :
    (∀ selection, s.page.disposed = false → s.page.activeSelection = some selection → selection.range ≠ [] →
      m.page.requestId = s.page.requestId + 1 ∧ .fetch (s.page.requestId + 1) selection true ∈ m.page.log) ∧
    ∀ p, .notify p ∈ s'.page.log → p.phase = .ready → s.page.requestId < p.requestId →
      .fetch p.requestId p.selection true ∈ s'.page.log → Selectable p.selection →
      ∃ body, p.data = some ⟨body, p.selection⟩ ∧
        body.call = dashboardCall p.selection isGuest true ∧ r ∈ body.observed := by
  have horderly : Orderly s :=
    Runs.run_preserves (fun _ _ _ h hstep => h.step hstep) (orderly_initial ttlSeconds now) hrun
  have hheard := hhear
  simp only [Live.step, Option.ite_none_right_eq_some, Option.map_eq_some_iff] at hheard
  obtain ⟨hr, page, hpage, rfl⟩ := hheard
  constructor
  · intro selection hopen hactive hrange
    obtain ⟨source, -, hpage⟩ := Option.bind_eq_some_iff.mp hpage
    split_ifs at hpage
    cases hpage
    exact onIngest_loads hopen hactive (normalize_texts hrange) false
  · intro p hp hphase hid hfetch hselectable
    have hend : Orderly s' ∧ Heard isGuest s.page.requestId r s' :=
      Runs.run_preserves (P := fun s' => Orderly s' ∧ Heard isGuest s.page.requestId r s')
        (fun _ _ _ h hstep => ⟨h.1.step hstep, h.2.step hfw h.1 hstep⟩)
        ⟨horderly.step hhear, (horderly.heard isGuest hr).step hfw horderly hhear⟩ hrest
    exact hend.2.answered.readied p (mem_readies hp hphase) (mem_fetches hfetch) ⟨hid, hselectable⟩

/-- A page that has been opened, before the first ingest ends. -/
def opened : List Action := [
  .page (.connect (some ⟨true, true, true⟩)),
  .page (.load (some ⟨lit "7d", []⟩) true false none),
  .server (.commit 1)]

/-- The fresh request is answered. -/
def refreshed : List Action := [
  .arrive 2 0,
  .server (.readDatabase 0),
  .server (.finish 0),
  .receive 2,
  .page (.react 2)]

def openedState : Option Live :=
  Runs.run (step plainFramework (fun _ => false) true) (initial 3600 0) opened

/-- The page can be opened. -/
theorem openedState_isSome : openedState.isSome = true := by decide

def heardState : Option Live :=
  openedState.bind fun s => step plainFramework (fun _ => false) true s (.hear 0 1)

/-- It can hear of a run. -/
theorem heardState_isSome : heardState.isSome = true := by decide

def refreshedState : Option Live :=
  heardState.bind fun s => Runs.run (step plainFramework (fun _ => false) true) s refreshed

/-- It can be refreshed. -/
theorem refreshedState_isSome : refreshedState.isSome = true := by decide

/-- What the page publishes then. -/
def refreshedReady : Published Str Dashboard :=
  ⟨.ready, ⟨lit "7d", []⟩, some ⟨⟨dashboardCall ⟨lit "7d", []⟩ true true, [1]⟩, ⟨lit "7d", []⟩⟩, [], 2⟩

/-- The page then shows a body that has seen the run. -/
theorem refreshed_shown :
    ∃ p body, .notify p ∈ (refreshedState.get refreshedState_isSome).page.log ∧ p.phase = .ready ∧
      p.data = some ⟨body, ⟨lit "7d", []⟩⟩ ∧ 1 ∈ body.observed := by
  have hp : .notify refreshedReady ∈ (refreshedState.get refreshedState_isSome).page.log :=
    List.mem_of_getElem? (i := 7) rfl
  have hfetch : .fetch 2 ⟨lit "7d", []⟩ true ∈ (refreshedState.get refreshedState_isSome).page.log :=
    List.mem_of_getElem? (i := 6) rfl
  have hopened : Runs.run (step plainFramework (fun _ => false) true) (initial 3600 0) opened =
      some (openedState.get openedState_isSome) := (Option.some_get openedState_isSome).symm
  have hheard : step plainFramework (fun _ => false) true (openedState.get openedState_isSome) (.hear 0 1) =
      some (heardState.get heardState_isSome) := rfl
  have hrefreshed : Runs.run (step plainFramework (fun _ => false) true) (heardState.get heardState_isSome)
      refreshed = some (refreshedState.get refreshedState_isSome) := rfl
  obtain ⟨body, hdata, -, hobserved⟩ :=
    (heard_run_shown documented_plainFramework hopened hheard hrefreshed).2 refreshedReady hp rfl (by decide)
      hfetch ⟨by decide, by decide, by decide⟩
  exact ⟨refreshedReady, body, hp, rfl, hdata, hobserved⟩

end Live

end Ghpulse.System
