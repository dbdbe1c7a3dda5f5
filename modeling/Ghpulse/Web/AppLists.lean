import Ghpulse.Web.AppDashboard

/-!
# The repository filter of the page

In every run, the page's address says what is selected, the filter offers repositories of the selected range
and the active one, and no event of an ingest is forgotten: unless a request is pending or its failure is
shown, a request that was sent after the last such event, past the cache, has been answered.

The list is requested by an effect with the dependencies range and nonce. A request that the effect has
retired may still be answered, and a pending one may be answered after the range was left; the flag
`alive` and the number of the request keep such answers out. The invariant of the requests (`Requests`)
says that the request with the last number is the only one whose answer counts, and what each of its
outcomes leaves behind. The invariant of the list (`ListInv`) adds what this means for the rows and for
the selection, the one of the address (`AddressInv`) what the address says; each is kept by every action,
and `page_inv` carries the first two over a run.

Reference: `src/app.jsx` (`App`).
-/

open Python Js Batched

namespace Ghpulse.Web.App

open Coordinator (Selection Output Reason)

/-! ## Answers

Statements about requests that stay true while the page goes on: a request keeps its range, its nonce and
whether it went past the cache, and once it was answered it keeps its rows.
-/

/-- Requests keep what they asked for and what they were answered. -/
def Later (before after : ℕ → Option ListRequest) : Prop :=
  ∀ id r, before id = some r → ∃ r', after id = some r' ∧ r'.range = r.range ∧ r'.fresh = r.fresh ∧
    r'.nonce = r.nonce ∧ ∀ rows, r.progress = .listed rows → r'.progress = .listed rows

/-- No rows, or the answer to a request for a range. -/
def Lists (requests : ℕ → Option ListRequest) (range : Str) (rows : List Value) : Prop :=
  rows = [] ∨ ∃ id r, requests id = some r ∧ r.range = range ∧ r.progress = .listed rows

/-- There was no event of an ingest, or a request that was sent after the last of `n` events, past the cache,
has been answered. -/
def Refreshed (requests : ℕ → Option ListRequest) (n : ℕ) : Prop :=
  n = 0 ∨ ∃ id r rows, requests id = some r ∧ r.fresh = true ∧ r.nonce = n ∧ r.progress = .listed rows

variable {before after requests : ℕ → Option ListRequest}

/-- No request has ended in the meantime. -/
theorem Later.refl (requests : ℕ → Option ListRequest) : Later requests requests :=
  fun _ r h => ⟨r, h, rfl, rfl, rfl, fun _ hrows => hrows⟩

/-- Nor in two stretches of time, if in neither. -/
theorem Later.trans {third : ℕ → Option ListRequest} (h : Later before after) (h' : Later after third) :
    Later before third := by
  intro id r hr
  obtain ⟨r₁, hr₁, hrange₁, hfresh₁, hnonce₁, hrows₁⟩ := h id r hr
  obtain ⟨r₂, hr₂, hrange₂, hfresh₂, hnonce₂, hrows₂⟩ := h' id r₁ hr₁
  exact ⟨r₂, hr₂, hrange₂.trans hrange₁, hfresh₂.trans hfresh₁, hnonce₂.trans hnonce₁,
    fun rows hrows => hrows₂ rows (hrows₁ rows hrows)⟩

/-- Rows that answer a request still do later. -/
theorem Lists.later {range : Str} {rows : List Value} (h : Lists before range rows)
    (hlater : Later before after) : Lists after range rows := by
  refine h.imp_right ?_
  rintro ⟨id, r, hr, hrange, hrows⟩
  obtain ⟨r', hr', hrange', -, -, hrows'⟩ := hlater id r hr
  exact ⟨id, r', hr', hrange'.trans hrange, hrows' rows hrows⟩

/-- A refresh that was sent is still sent later. -/
theorem Refreshed.later {n : ℕ} (h : Refreshed before n) (hlater : Later before after) :
    Refreshed after n := by
  refine h.imp_right ?_
  rintro ⟨id, r, rows, hr, hfresh, hnonce, hrows⟩
  obtain ⟨r', hr', -, hfresh', hnonce', hrows'⟩ := hlater id r hr
  exact ⟨id, r', rows, hr', hfresh'.trans hfresh, hnonce'.trans hnonce, hrows' rows hrows⟩

/-- A pending request is answered. -/
theorem later_update {id : ℕ} {r r' : ListRequest} (hr : requests id = some r)
    (hpending : r.progress = .pending)
    (hrange : r'.range = r.range) (hfresh : r'.fresh = r.fresh) (hnonce : r'.nonce = r.nonce) :
    Later requests (Function.update requests id (some r')) := by
  intro id' r'' hr''
  by_cases hid : id = id'
  · subst hid
    obtain rfl := Option.some.inj (hr.symm.trans hr'')
    refine ⟨r', Function.update_self _ _ _, hrange, hfresh, hnonce, fun rows hrows => ?_⟩
    rw [hpending] at hrows
    cases hrows
  · exact ⟨r'', (Function.update_of_ne (Ne.symm hid) _ _).trans hr'', rfl, rfl, rfl, fun _ hrows => hrows⟩

/-! ## The requests

`repositoryRequestId` and `repositoryRefreshHandled` are references of the page, `alive` belongs to one
run of the effect. The effect sends one request for each change of its dependencies and retires the one
before. A request goes past the cache if its nonce has not been handled, and a nonce counts as handled
when a request that was sent for it past the cache is answered, not when it is sent: after an error or a
change of the range the next request goes past the cache again.
-/

/-- The request whose dependencies the effect holds: it is the only one whose answer counts. -/
structure Current (s : State) (rng : Str) (n : ℕ) (r : ListRequest) : Prop where
  request : s.requests s.requestId = some r
  alive : r.alive = true
  range : r.range = rng
  nonce : r.nonce = n
  fresh : r.fresh = false → s.handled = n
  listed : ∀ rows, r.progress = .listed rows → s.handled = n
  failed : r.progress = .failed → s.repositoryError.final ≠ []

/-- What holds of the requests of the repository list at any moment. -/
structure Requests (s : State) : Prop where
  announced : s.nonce.final = s.coordinator.log.countP isIngestDone
  synced : s.nonce.Synced
  alive : ∀ id r, s.requests id = some r → r.alive = true → id = s.requestId
  bounded : ∀ id r, s.requests id = some r → id ≤ s.requestId
  unmounted : s.listDeps = none → ∀ id, s.requests id = none
  handled : Refreshed s.requests s.handled
  current : ∀ range n, s.listDeps = some (range, n) → ∃ r, Current s range n r

variable {js : Runtime} {s s' : State}

/-- Before the page is mounted no list has been requested. -/
theorem requests_initial (search : Str) : Requests (State.initial search) where
  announced := rfl
  synced := Hook.Synced.new 0
  alive := fun _ _ h => by cases h
  bounded := fun _ _ h => by cases h
  unmounted := fun _ _ => rfl
  handled := Or.inl rfl
  current := fun _ _ h => by cases h

/-- The effect of the repository list: nothing, or a request for the range, past the cache if an event has not
been handled. -/
theorem Requests.listEffect (h : Requests s) :
    Requests (listEffect s) ∧ (App.listEffect s).listDeps = some (s.selection.range, s.nonce.value) ∧
      Later s.requests (App.listEffect s).requests := by
  unfold App.listEffect
  split_ifs with hdeps
  · exact ⟨h, hdeps, Later.refl _⟩
  -- the number of the new request is unused
  · have hnew : s.requests (s.requestId + 1) = none := by
      cases hr : s.requests (s.requestId + 1) with
      | none => rfl
      | some r => exact absurd (h.bounded _ r hr) (Nat.not_succ_le_self _)
    -- of the other requests, the last one is retired and the rest is as before
    have hold (id : ℕ) (hid : id ≠ s.requestId + 1) (request : ListRequest) :
        Function.update (retire s) (s.requestId + 1) (some request) id =
          if id = s.requestId then (s.requests id).map fun r => { r with alive := false }
          else s.requests id := by
      rw [Function.update_of_ne hid, retire, Function.update_apply]
      split_ifs with heq
      · rw [heq]
      · rfl
    have hlater (request : ListRequest) :
        Later s.requests (Function.update (retire s) (s.requestId + 1) (some request)) := by
      intro id r hr
      have hid : id ≠ s.requestId + 1 := fun heq => by rw [heq, hnew] at hr; cases hr
      rw [hold id hid]
      split_ifs
      · exact ⟨{ r with alive := false }, by rw [hr]; rfl, rfl, rfl, rfl, fun _ hrows => hrows⟩
      · exact ⟨r, hr, rfl, rfl, rfl, fun _ hrows => hrows⟩
    refine ⟨⟨h.announced, h.synced, ?_, ?_, fun hnone => (by cases hnone), h.handled.later (hlater _), ?_⟩,
      rfl, hlater _⟩
    -- alive: every other request is retired, or was not alive before
    · intro id r hr halive
      by_contra hid
      dsimp only at hr hid
      rw [hold id hid] at hr
      split_ifs at hr with heq
      · obtain ⟨r', -, rfl⟩ := Option.map_eq_some_iff.mp hr
        cases halive
      · exact heq (h.alive id r hr halive)
    · intro id r hr
      dsimp only at hr ⊢
      by_cases hid : id = s.requestId + 1
      · exact hid.le
      · rw [hold id hid] at hr
        split_ifs at hr with heq
        · exact heq ▸ Nat.le_succ _
        · exact (h.bounded id r hr).trans (Nat.le_succ _)
    -- current: the new request is pending; if it may use the cache, the nonce has been handled
    · intro range n hsome
      cases hsome
      refine ⟨_, ⟨Function.update_self _ _ _, rfl, rfl, rfl, fun hfresh => ?_,
        fun rows hrows => (by cases hrows),
        fun hfailed => (by cases hfailed)⟩⟩
      exact (not_not.mp (of_decide_eq_false hfresh)).symm

/-- The fields that the requests of the list are told by. -/
theorem Requests.congr (h : Requests s) (hnonce : s'.nonce.final = s.nonce.final) (hsynced : s'.nonce.Synced)
    (hcoordinator : s'.coordinator = s.coordinator) (hid : s'.requestId = s.requestId)
    (hhandled : s'.handled = s.handled) (hrequests : s'.requests = s.requests)
    (hdeps : s'.listDeps = s.listDeps) (herror : s'.repositoryError.final = s.repositoryError.final) :
    Requests s' where
  announced := by rw [hnonce, hcoordinator, h.announced]
  synced := hsynced
  alive := by rw [hrequests, hid]; exact h.alive
  bounded := by rw [hrequests, hid]; exact h.bounded
  unmounted := by rw [hrequests, hdeps]; exact h.unmounted
  handled := by rw [hrequests, hhandled]; exact h.handled
  current := by
    intro range n hsome
    obtain ⟨r, hr⟩ := h.current range n (hdeps ▸ hsome)
    refine ⟨r, ⟨?_, hr.alive, hr.range, hr.nonce, ?_, ?_, ?_⟩⟩
    · rw [hrequests, hid, hr.request]
    · rw [hhandled]
      exact hr.fresh
    · rw [hhandled]
      exact hr.listed
    · rw [herror]
      exact hr.failed

/-- The nonce stays in step under everything the coordinator says. -/
theorem synced_foldl (outputs : List (Output Str Value)) (h : s.nonce.Synced) :
    (outputs.foldl onOutput s).nonce.Synced := by
  induction outputs generalizing s with
  | nil => exact h
  | cons o outputs ih =>
    refine ih ?_
    cases o with
    | ingest failed selection =>
      cases failed
      · exact Hook.Synced.update _ _
      · exact h
    | _ => exact h

/-- The calls of the coordinator do not touch the requests of the list. -/
theorem Requests.foldl (h : Requests s) {c : Coordinator.State Str Value} {new : List (Output Str Value)}
    (hlog : c.log = s.coordinator.log ++ new) :
    Requests (new.foldl onOutput { s with coordinator := c }) := by
  have hframed := framed_foldl new { s with coordinator := c }
  have hnonce := nonce_foldl new { s with coordinator := c }
  -- each finished ingest that the coordinator reports adds one to the nonce
  have hold : Requests { s with coordinator := c, nonce := .new (s.nonce.final + new.countP isIngestDone) } :=
    { announced := by
        change s.nonce.final + new.countP isIngestDone = c.log.countP isIngestDone
        rw [hlog, List.countP_append, h.announced]
      synced := Hook.Synced.new _
      alive := h.alive
      bounded := h.bounded
      unmounted := h.unmounted
      handled := h.handled
      current := fun range n hsome =>
        (h.current range n hsome).imp fun _ hr =>
          ⟨hr.request, hr.alive, hr.range, hr.nonce, hr.fresh, hr.listed, hr.failed⟩ }
  exact hold.congr hnonce (synced_foldl new h.synced) hframed.coordinator hframed.requestId hframed.handled
    hframed.requests
    hframed.listDeps (congrArg Hook.final hframed.repositoryError)

/-- The effects that are due leave the list requested for the range and the events that are rendered. -/
theorem Requests.flush (h : Requests s) (hrange : s.selection.range ≠ [])
    (hmounting : Mounting s.loadDeps s.coordinator) (hdue : s.effectsDue = true) :
    Requests (flush s) ∧ (App.flush s).listDeps = some (s.selection.range, s.nonce.value) ∧
      Later s.requests (App.flush s).requests ∧ (App.flush s).repositories = s.repositories ∧
      (App.flush s).nonce.value = s.nonce.value ∧ (App.flush s).search = s.search ∧
      (App.flush s).effectsDue = false := by
  -- the effect of the list runs first; the one of the dashboard only calls the coordinator
  obtain ⟨hlist, hdeps, hlater⟩ := h.listEffect
  obtain ⟨requestId, repositoryError, requests, listDeps, heq⟩ := listEffect_eq s
  rw [heq] at hlist hdeps hlater
  obtain ⟨c, new, hlog, -, hload, -⟩ := loadEffect_eq (s := { s with
    requestId := requestId, repositoryError := repositoryError, requests := requests, listDeps := listDeps })
    hrange hmounting
  have hframed := framed_foldl new { s with
    requestId := requestId, repositoryError := repositoryError, requests := requests, listDeps := listDeps,
    coordinator := c }
  have hfold := hlist.foldl hlog
  have hkept : Later s.requests (new.foldl onOutput { s with
      requestId := requestId, repositoryError := repositoryError, requests := requests, listDeps := listDeps,
      coordinator := c }).requests := by
    rw [hframed.requests]
    exact hlater
  unfold App.flush
  rw [if_pos hdue, heq, hload]
  exact ⟨hfold.congr rfl hfold.synced rfl rfl rfl rfl rfl rfl, hframed.listDeps.trans hdeps, hkept,
    hframed.repositories, hframed.nonce, hframed.search, rfl⟩

/-- The end of a discrete event leaves the list requested for the range that is selected then. -/
theorem Requests.finish (h : Requests s) (hsettled : Settled s) {selection : Selection Str}
    (hrange : selection.range ≠ []) :
    Requests (finish s selection) ∧ Later s.requests (App.finish s selection).requests ∧
      (App.finish s selection).listDeps = some (selection.range, (App.finish s selection).nonce.value) ∧
      (App.finish s selection).repositories = s.repositories.renderUrgent ∧
      (App.finish s selection).search = s.search ∧ (App.finish s selection).effectsDue = false := by
  -- a discrete event flushes the effects that are due before it renders what it sets
  obtain ⟨hflushed, hlater, hrepositories, hsearch⟩ : Requests (App.flush s) ∧
      Later s.requests (App.flush s).requests ∧ (App.flush s).repositories = s.repositories ∧
        (App.flush s).search = s.search := by
    by_cases hdue : s.effectsDue = true
    · obtain ⟨hflushed, -, hlater, hrepositories, -, hsearch, -⟩ :=
        h.flush hsettled.range hsettled.mounting hdue
      exact ⟨hflushed, hlater, hrepositories, hsearch⟩
    · have hflush : App.flush s = s := if_neg hdue
      rw [hflush]
      exact ⟨h, Later.refl _, rfl, rfl⟩
  obtain ⟨-, hloadDeps, hloaded, -⟩ := hsettled.flush
  have hmiddle : Requests { App.flush s with
      selection := selection
      dashboard := (App.flush s).dashboard.renderUrgent
      repositories := (App.flush s).repositories.renderUrgent
      history := (App.flush s).history.renderUrgent
      repositoryError := (App.flush s).repositoryError.renderUrgent
      nonce := (App.flush s).nonce.renderUrgent
      effectsDue := true } :=
    hflushed.congr rfl Hook.Synced.renderUrgent rfl rfl rfl rfl rfl rfl
  obtain ⟨hdone, hdeps, hlater', hrepositories', hnonce, hsearch', hdue⟩ :=
    hmiddle.flush hrange (Or.inr ⟨s.selection, hloadDeps, hloaded⟩) rfl
  unfold App.finish
  exact ⟨hdone, hlater.trans hlater', hdeps.trans (by rw [hnonce]),
    hrepositories'.trans (by rw [hrepositories]),
    hsearch'.trans hsearch, hdue⟩

/-- The handlers of a request that was retired. -/
theorem onListed_of_not_alive {id : ℕ} {r : ListRequest} (halive : r.alive = false)
    (outcome : List Value ⊕ Reason) :
    onListed s id r outcome = { s with
      requests := Function.update s.requests id
        (some { r with progress := outcome.elim .listed fun _ => .failed }) } := by
  unfold onListed
  rw [halive]
  cases outcome <;> rfl

/-- A request has ended: the others stand as they were. -/
theorem Requests.ended (h : Requests s) {id : ℕ} {r : ListRequest} (hr : s.requests id = some r)
    {deps : Str × ℕ} (hdeps : s.listDeps = some deps) (progress : Progress) (handled : ℕ)
    (repositories : Hook (List Value)) (history : Hook (List (Str × Value))) (error : Hook Str)
    (hhandled : Refreshed (Function.update s.requests id (some { r with progress := progress })) handled)
    (hcurrent : ∃ r', Current { s with
      requests := Function.update s.requests id (some { r with progress := progress })
      handled := handled, repositories := repositories, history := history, repositoryError := error }
      deps.1 deps.2 r') :
    Requests { s with
      requests := Function.update s.requests id (some { r with progress := progress })
      handled := handled, repositories := repositories, history := history, repositoryError := error } := by
  refine ⟨h.announced, h.synced, fun id' r' hr' halive => ?_, fun id' r' hr' => ?_, fun hnone => ?_,
    hhandled, fun range n hsome => ?_⟩
  · rcases Coordinator.update_eq_some hr' with ⟨rfl, rfl⟩ | ⟨-, hold⟩
    · exact h.alive id' r hr halive
    · exact h.alive id' r' hold halive
  · rcases Coordinator.update_eq_some hr' with ⟨rfl, -⟩ | ⟨-, hold⟩
    · exact h.bounded id' r hr
    · exact h.bounded id' r' hold
  · dsimp only at hnone
    rw [hdeps] at hnone
    cases hnone
  · dsimp only at hsome
    obtain rfl : deps = (range, n) := Option.some.inj (hdeps.symm.trans hsome)
    exact hcurrent

/-- The answer to a request: only the one whose dependencies the effect holds changes what is listed. -/
theorem Requests.onListed (h : Requests s) {id : ℕ} {r : ListRequest} (hr : s.requests id = some r)
    (hpending : r.progress = .pending) {outcome : List Value ⊕ Reason}
    (hreject : mayReject outcome.getRight? (!r.alive) = true) :
    Requests (onListed s id r outcome) ∧ Later s.requests (App.onListed s id r outcome).requests ∧
      (App.onListed s id r outcome).listDeps = s.listDeps ∧
      (App.onListed s id r outcome).nonce = s.nonce ∧ (App.onListed s id r outcome).search = s.search ∧
      ((App.onListed s id r outcome).repositories = s.repositories ∨
        ∃ rows, (App.onListed s id r outcome).repositories = s.repositories.set false rows ∧
          ∃ range n, s.listDeps = some (range, n) ∧
            Lists (App.onListed s id r outcome).requests range rows) := by
  -- before the effect has run there are no requests
  obtain ⟨deps, hdeps⟩ : ∃ deps, s.listDeps = some deps := by
    cases hdeps : s.listDeps with
    | none =>
      rw [h.unmounted hdeps] at hr
      cases hr
    | some deps => exact ⟨deps, rfl⟩
  obtain ⟨current, hcurrent⟩ := h.current deps.1 deps.2 hdeps
  have hlater (progress : Progress) :
      Later s.requests (Function.update s.requests id (some { r with progress := progress })) :=
    later_update hr hpending rfl rfl rfl
  by_cases halive : r.alive = true
  · -- the request is the one that counts
    obtain rfl : id = s.requestId := h.alive id r hr halive
    obtain rfl : current = r := Option.some.inj (hcurrent.request.symm.trans hr)
    cases outcome with
    -- its rows are shown, and its nonce is handled: it was sent past the cache, or had been handled
    -- before
    | inl rows =>
      have hguard : (current.alive && decide (s.requestId = s.requestId)) = true := by
        rw [halive, decide_eq_true rfl]
        rfl
      have hhandled : (if current.fresh then current.nonce else s.handled) = deps.2 := by
        split_ifs with hfresh
        · exact hcurrent.nonce
        · exact hcurrent.fresh ((Bool.not_eq_true _).mp hfresh)
      unfold App.onListed
      dsimp only
      rw [if_pos hguard]
      refine ⟨h.ended hr hdeps (.listed rows) _ _ _ _ ?_ ⟨_, Function.update_self _ _ _, halive,
        hcurrent.range, hcurrent.nonce, fun _ => hhandled, fun _ _ => hhandled,
        fun hfailed => (by cases hfailed)⟩,
        hlater _, rfl, rfl, rfl, Or.inr ⟨rows, rfl, deps.1, deps.2, hdeps,
          Or.inr ⟨s.requestId, _, Function.update_self _ _ _, hcurrent.range, rfl⟩⟩⟩
      split_ifs with hfresh
      · exact Or.inr ⟨s.requestId, _, rows, Function.update_self _ _ _, hfresh, rfl, rfl⟩
      · exact h.handled.later (hlater _)
    -- nobody aborted it, so the error is shown; the nonce is not handled
    | inr e =>
      have hname : e.name ≠ lit "AbortError" := by
        rw [halive] at hreject
        exact of_decide_eq_true ((Bool.or_false _).symm.trans hreject)
      have hguard : (current.alive && decide (s.requestId = s.requestId) &&
          decide (e.name ≠ lit "AbortError")) = true := by
        rw [halive, decide_eq_true rfl, decide_eq_true hname]
        rfl
      unfold App.onListed
      dsimp only
      rw [if_pos hguard]
      refine ⟨h.ended hr hdeps .failed _ _ _ _ (h.handled.later (hlater _)) ⟨_, Function.update_self _ _ _,
        halive, hcurrent.range, hcurrent.nonce, hcurrent.fresh, fun rows hrows => (by cases hrows),
        fun _ => ?_⟩,
        hlater _, rfl, rfl, rfl, Or.inl rfl⟩
      rw [Hook.final_set]
      exact List.append_ne_nil_of_left_ne_nil (by decide) _
  -- a retired request only notes that it has ended
  · have hid : s.requestId ≠ id := by
      rintro rfl
      obtain rfl : current = r := Option.some.inj (hcurrent.request.symm.trans hr)
      exact halive hcurrent.alive
    rw [onListed_of_not_alive ((Bool.not_eq_true _).mp halive)]
    refine ⟨h.ended hr hdeps _ _ _ _ _ (h.handled.later (hlater _)) ⟨current, ?_, hcurrent.alive,
      hcurrent.range, hcurrent.nonce, hcurrent.fresh, hcurrent.listed, hcurrent.failed⟩, hlater _, rfl, rfl,
      rfl, Or.inl rfl⟩
    exact (Function.update_of_ne hid _ _).trans hcurrent.request

/-! ## The list

The rows belong to the active range: a click on a range empties them in the same event that selects it,
and only the request for the active range fills them.
-/

/-- What holds of the repository list after every step. -/
structure ListInv (s : State) : Prop extends Requests s where
  deps : ∀ range n, s.listDeps = some (range, n) → range = s.selection.range
  mounted : s.loadDeps ≠ none → s.listDeps ≠ none
  done : s.effectsDue = false → s.listDeps = some (s.selection.range, s.nonce.value)
  ensures : s.repositories.Ensures (Lists s.requests s.selection.range)
  shown : Lists s.requests s.selection.range s.repositories.value

/-- The lists hold the invariant before the page is mounted. -/
theorem ListInv.initial (search : Str) : ListInv (State.initial search) where
  toRequests := requests_initial search
  deps := fun _ _ h => by cases h
  mounted := fun h => absurd rfl h
  done := fun h => by cases h
  ensures := Hook.Ensures.new (Or.inl rfl)
  shown := Or.inl rfl

/-- The effects have run. -/
theorem ListInv.of_done (h : Requests s) (hdone : s.listDeps = some (s.selection.range, s.nonce.value))
    (hensures : s.repositories.Ensures (Lists s.requests s.selection.range))
    (hshown : Lists s.requests s.selection.range s.repositories.value) : ListInv s where
  toRequests := h
  deps := fun _ _ hsome => (congrArg Prod.fst (Option.some.inj (hdone.symm.trans hsome))).symm
  mounted := fun _ hnone => by
    rw [hdone] at hnone
    cases hnone
  done := fun _ => hdone
  ensures := hensures
  shown := hshown

/-- The effects keep it, and send the requests that it asks for. -/
theorem ListInv.flush (h : ListInv s) (hsettled : Settled s) : ListInv (flush s) := by
  by_cases hdue : s.effectsDue = true
  · obtain ⟨hrequests, hdeps, hlater, hrepositories, hnonce, -, -⟩ :=
      h.toRequests.flush hsettled.range hsettled.mounting hdue
    obtain ⟨hselection, -⟩ := hsettled.flush
    refine .of_done hrequests ?_ ?_ ?_
    · rw [hdeps, hselection, hnonce]
    · rw [hrepositories, hselection]
      exact h.ensures.mono fun rows hrows => hrows.later hlater
    · rw [hrepositories, hselection]
      exact h.shown.later hlater
  -- no effect is due
  · have hflush : App.flush s = s := if_neg hdue
    rw [hflush]
    exact h

/-- A discrete event that leaves rows of the range that is selected then. -/
theorem ListInv.finish (h : Requests s) (hsettled : Settled s) {selection : Selection Str}
    (hrange : selection.range ≠ []) (hensures : s.repositories.Ensures (Lists s.requests selection.range)) :
    ListInv (finish s selection) := by
  obtain ⟨hrequests, hlater, hdone, hrepositories, -, -⟩ := h.finish hsettled hrange
  obtain ⟨hselection, -⟩ := hsettled.finish hrange
  refine .of_done hrequests ?_ ?_ ?_
  · rw [hdone, hselection]
  · rw [hrepositories, hselection]
    exact hensures.renderUrgent.mono fun rows hrows => hrows.later hlater
  · rw [hrepositories, hselection]
    exact hensures.value_renderUrgent.later hlater

/-- Every action keeps it. -/
theorem ListInv.step (h : ListInv s) (hdashboard : DashboardInv s) {a : Action}
    (hstep : step js s a = some s') : ListInv s' := by
  -- what the coordinator says reaches the dashboard and the nonce, not the list
  have hcall (ha : a.CallsCoordinator) : ListInv s' := by
    obtain ⟨c, new, rfl, hlog, -⟩ := hdashboard.called ha hstep
    have hframed := framed_foldl new { s with coordinator := c }
    rw [absorb_eq hlog]
    refine ⟨h.toRequests.foldl hlog, ?_, ?_, ?_, ?_, ?_⟩
    · rw [hframed.listDeps, hframed.selection]
      exact h.deps
    · rw [hframed.listDeps, hframed.loadDeps]
      exact h.mounted
    · rw [hframed.effectsDue, hframed.listDeps, hframed.selection, hframed.nonce]
      exact h.done
    · rw [hframed.repositories, hframed.requests, hframed.selection]
      exact h.ensures
    · rw [hframed.repositories, hframed.requests, hframed.selection]
      exact h.shown
  cases a with
  | settle id outcome => exact hcall trivial
  | react id => exact hcall trivial
  | deliver event => exact hcall trivial
  -- an answer sets rows, if any, of the range that the effect holds
  | listed id outcome =>
    obtain ⟨r, hr, hpending, hreject, rfl⟩ := listed_eq hstep
    obtain ⟨hrequests, hlater, hdeps, hnonce, -, hrepositories⟩ := h.toRequests.onListed hr hpending hreject
    obtain ⟨hselection, hloadDeps, hdue, -, -⟩ := onListed_dashboard s id r outcome
    refine ⟨hrequests, ?_, ?_, ?_, ?_, ?_⟩
    · rw [hdeps, hselection]
      exact h.deps
    · rw [hdeps, hloadDeps]
      exact h.mounted
    · rw [hdue, hdeps, hselection, hnonce]
      exact h.done
    · have hensures := h.ensures.mono fun rows hrows => hrows.later hlater
      rw [hselection]
      rcases hrepositories with hsame | ⟨rows, hset, range, n, hsome, hrows⟩
      · exact hsame ▸ hensures
      · rw [hset]
        exact hensures.set (h.deps range n hsome ▸ hrows)
    · rw [hselection]
      rcases hrepositories with hsame | ⟨rows, hset, -⟩
      · exact hsame ▸ h.shown.later hlater
      · rw [hset]
        exact h.shown.later hlater
  | render =>
    cases hstep
    have hflush := h.flush hdashboard.toSettled
    exact ⟨hflush.toRequests.congr rfl Hook.Synced.render rfl rfl rfl rfl rfl rfl, hflush.deps,
      hflush.mounted, fun hdue => (by cases hdue), hflush.ensures.render, hflush.ensures.final⟩
  | effects =>
    cases hstep
    exact h.flush hdashboard.toSettled
  -- the rows are emptied at once, so they cannot be of another range
  | clickRange value =>
    simp only [App.step, Option.ite_none_right_eq_some, Option.some.injEq] at hstep
    obtain ⟨hvalue, rfl⟩ := hstep
    exact ListInv.finish
      (s := { s with
        dashboard := s.dashboard.set true (loading ⟨value, s.selection.repository⟩)
        repositories := s.repositories.set true []
        search := setBrowserFilterState s.search value s.selection.repository })
      (h.toRequests.congr rfl h.synced rfl rfl rfl rfl rfl rfl) ⟨hdashboard.range, hdashboard.deps⟩
      (ne_nil_of_mem_validRanges hvalue) (Hook.Ensures.of_urgent (Or.inl rfl))
  -- the range and its rows stay
  | chooseRepository value =>
    simp only [App.step, Option.ite_none_right_eq_some, Option.some.injEq] at hstep
    obtain ⟨-, rfl⟩ := hstep
    exact ListInv.finish
      (s := { s with
        dashboard := s.dashboard.set true (loading ⟨s.selection.range, value⟩)
        search := setBrowserFilterState s.search s.selection.range value })
      (h.toRequests.congr rfl h.synced rfl rfl rfl rfl rfl rfl) ⟨hdashboard.range, hdashboard.deps⟩
      hdashboard.range h.ensures

/-- The invariants of the page, in every run. -/
theorem page_inv {search : Str} {as : List Action}
    (hrun : Runs.run (step js) (State.initial search) as = some s) : DashboardInv s ∧ ListInv s :=
  Runs.run_preserves (P := fun s => DashboardInv s ∧ ListInv s)
    (fun _ _ _ h hstep => ⟨(h.1.step hstep).1, h.2.step h.1 hstep⟩)
    ⟨DashboardInv.initial search, ListInv.initial search⟩ hrun

/-- In every run, the rows of the filter are an answer to a request for the active range, if there are any,
and the filter offers each of them and the active repository, and nothing else, once. -/
theorem filter_offers {search : Str} {as : List Action}
    (hrun : Runs.run (step js) (State.initial search) as = some s) :
    (s.repositories.value = [] ∨ ∃ id r, s.requests id = some r ∧ r.range = s.selection.range ∧
      r.progress = .listed s.repositories.value) ∧
    ((options js s).map nodeId).Nodup ∧
    ∀ id, id ∈ (options js s).map nodeId ↔
      id ≠ [] ∧ (id ∈ s.repositories.value.map nodeId ∨ id = s.selection.repository) :=
  ⟨(page_inv hrun).2.shown, nodeId_options js _ _ _⟩

/-- The repository that was chosen in the visit is offered. -/
theorem visited_offers : lit "R_1" ∈ (options visitor (visited.get visited_isSome)).map nodeId :=
  ((filter_offers (Option.some_get visited_isSome).symm).2.2 _).mpr ⟨by decide, Or.inr (by decide)⟩

/-- In every run of the mounted page, once all updates are rendered and their effects have run: a request of
the list that was sent after the last event of an ingest, past the cache, has been answered, or it is pending,
or its failure is shown. -/
theorem refresh_kept {search : Str} {as : List Action}
    (hrun : Runs.run (step js) (State.initial search) as = some s) (hdue : s.effectsDue = false)
    (hqueue : s.nonce.queue = []) :
    Refreshed s.requests (s.coordinator.log.countP isIngestDone) ∨
      (∃ r, s.requests s.requestId = some r ∧ r.range = s.selection.range ∧ r.fresh = true ∧
        r.nonce = s.coordinator.log.countP isIngestDone ∧ r.progress = .pending) ∨
      s.repositoryError.final ≠ [] := by
  have h := (page_inv hrun).2
  have hcount : s.nonce.value = s.coordinator.log.countP isIngestDone :=
    (h.synced.value_eq hqueue).trans h.announced
  obtain ⟨r, hr⟩ := h.current _ _ (h.done hdue)
  rw [hcount] at hr
  have hanswered (hhandled : s.handled = s.coordinator.log.countP isIngestDone) :
      Refreshed s.requests (s.coordinator.log.countP isIngestDone) := hhandled ▸ h.handled
  -- the request with the current dependencies: pending, answered or failed
  cases hprogress : r.progress with
  | pending =>
    cases hfresh : r.fresh with
    | false => exact Or.inl (hanswered (hr.fresh hfresh))
    | true => exact Or.inr (Or.inl ⟨r, hr.request, hr.range, hfresh, hr.nonce, hprogress⟩)
  | listed rows => exact Or.inl (hanswered (hr.listed rows hprogress))
  | failed => exact Or.inr (Or.inr (hr.failed hprogress))

/-- After the ingest of the visit, a request past the cache is pending for the range that was clicked. -/
theorem visited_refreshes :
    Refreshed (visited.get visited_isSome).requests 1 ∨
      ∃ r, (visited.get visited_isSome).requests (visited.get visited_isSome).requestId = some r ∧
        r.range = lit "7d" ∧ r.fresh = true ∧ r.nonce = 1 ∧ r.progress = .pending := by
  rcases refresh_kept (Option.some_get visited_isSome).symm (by decide) rfl with hold | ⟨r, hr⟩ | herror
  · exact Or.inl hold
  · exact Or.inr ⟨r, hr⟩
  · exact absurd rfl herror

/-! ## The address

Clicks and choices write the address, nothing else does. The address can carry any valid range, and any id
without a lone surrogate (`Writable`).
-/

/-- A repository that is chosen has an id that an address can hold: every text but one with a lone
surrogate. -/
def Writable (_ : State) : Action → Prop
  | .chooseRepository value => encodable value = true
  | _ => True

/-- The address that a page was opened at says what is selected, and carries what it carried. -/
structure AddressInv (search : Str) (s : State) : Prop where
  range : s.selection.range ∈ validRanges
  repository : encodable s.selection.repository = true
  reload : readFilterState s.search = s.selection
  others : otherParams s.search = otherParams search

/-- The invariant of the address depends on the address and the selection alone. -/
theorem AddressInv.congr {search : Str} (h : AddressInv search s) (hsearch : s'.search = s.search)
    (hselection : s'.selection = s.selection) : AddressInv search s' where
  range := hselection ▸ h.range
  repository := hselection ▸ h.repository
  reload := by rw [hsearch, hselection, h.reload]
  others := by rw [hsearch, h.others]

/-- A text or its default can be encoded when both can. -/
theorem encodable_textOr {value : Option Str} {other : Str}
    (hvalue : ∀ s, value = some s → encodable s = true) (hother : encodable other = true) :
    encodable (textOr value other) = true := by
  unfold textOr
  cases value with
  | none => exact hother
  | some text =>
    dsimp only
    split_ifs
    · exact hother
    · exact hvalue text rfl

/-- The address holds its invariant before the page is mounted. -/
theorem AddressInv.initial (search : Str) : AddressInv search (State.initial search) where
  range := by
    change (readFilterState search).range ∈ validRanges
    unfold readFilterState
    dsimp only
    split_ifs with h
    · exact h
    · decide
  repository := by
    refine encodable_textOr (fun s hs => ?_) rfl
    obtain ⟨p, hp, rfl⟩ := Option.map_eq_some_iff.mp hs
    exact (FormUrl.carried_of_mem_parse (List.mem_of_find?_eq_some hp)).2
  reload := rfl
  others := rfl

/-- The effects write the selection to the address. -/
theorem AddressInv.flush {search : Str} (h : AddressInv search s) (hrequests : Requests s)
    (hsettled : Settled s) : AddressInv search (flush s) := by
  by_cases hdue : s.effectsDue = true
  · obtain ⟨-, -, -, -, -, hsearch, -⟩ := hrequests.flush hsettled.range hsettled.mounting hdue
    exact h.congr hsearch hsettled.flush.1
  · have hflush : App.flush s = s := if_neg hdue
    rw [hflush]
    exact h

/-- A discrete event that writes what it selects into the address. -/
theorem AddressInv.finish {search address : Str} (hothers : otherParams address = otherParams search)
    (hrequests : Requests s) (hsettled : Settled s) {selection : Selection Str}
    (hrange : selection.range ∈ validRanges) (hrepository : encodable selection.repository = true)
    (hsearch : s.search = setBrowserFilterState address selection.range selection.repository) :
    AddressInv search (finish s selection) := by
  have hvalid := ne_nil_of_mem_validRanges hrange
  obtain ⟨-, -, -, -, hsame, -⟩ := hrequests.finish hsettled hvalid
  obtain ⟨hselection, -⟩ := hsettled.finish hvalid
  obtain ⟨hreload, hkept⟩ := readFilterState_setBrowserFilterState address hrange hrepository
  refine ⟨?_, ?_, ?_, ?_⟩
  · rw [hselection]
    exact hrange
  · rw [hselection]
    exact hrepository
  · rw [hsame, hsearch, hselection, hreload]
  · rw [hsame, hsearch, hkept, hothers]

/-- Every action keeps the invariant of the address. -/
theorem AddressInv.step {search : Str} (h : AddressInv search s) (hdashboard : DashboardInv s)
    (hlist : ListInv s) {a : Action} (hok : Writable s a) (hstep : step js s a = some s') :
    AddressInv search s' := by
  have hcall (ha : a.CallsCoordinator) : AddressInv search s' := by
    obtain ⟨c, new, rfl, hlog, -⟩ := hdashboard.called ha hstep
    have hframed := framed_foldl new { s with coordinator := c }
    rw [absorb_eq hlog]
    exact h.congr hframed.search hframed.selection
  cases a with
  | settle id outcome => exact hcall trivial
  | react id => exact hcall trivial
  | deliver event => exact hcall trivial
  | listed id outcome =>
    obtain ⟨r, hr, hpending, hreject, rfl⟩ := listed_eq hstep
    obtain ⟨-, -, -, -, hsearch, -⟩ := hlist.toRequests.onListed hr hpending hreject
    exact h.congr hsearch (onListed_dashboard s id r outcome).1
  | render =>
    cases hstep
    exact (h.flush hlist.toRequests hdashboard.toSettled).congr rfl rfl
  | effects =>
    cases hstep
    exact h.flush hlist.toRequests hdashboard.toSettled
  -- the event writes what it selects
  | clickRange value =>
    simp only [App.step, Option.ite_none_right_eq_some, Option.some.injEq] at hstep
    obtain ⟨hvalue, rfl⟩ := hstep
    have hrange : (Selection.mk value s.selection.repository).range ∈ validRanges := hvalue
    have hrepository : encodable (Selection.mk value s.selection.repository).repository = true := h.repository
    exact AddressInv.finish
      (s := { s with
        dashboard := s.dashboard.set true (loading ⟨value, s.selection.repository⟩)
        repositories := s.repositories.set true []
        search := setBrowserFilterState s.search value s.selection.repository })
      h.others (hlist.toRequests.congr rfl hlist.synced rfl rfl rfl rfl rfl rfl)
      ⟨hdashboard.range, hdashboard.deps⟩ hrange hrepository rfl
  | chooseRepository value =>
    simp only [App.step, Option.ite_none_right_eq_some, Option.some.injEq] at hstep
    obtain ⟨-, rfl⟩ := hstep
    have hrange : (Selection.mk s.selection.range value).range ∈ validRanges := h.range
    have hrepository : encodable (Selection.mk s.selection.range value).repository = true := hok
    exact AddressInv.finish
      (s := { s with
        dashboard := s.dashboard.set true (loading ⟨s.selection.range, value⟩)
        search := setBrowserFilterState s.search s.selection.range value })
      h.others (hlist.toRequests.congr rfl hlist.synced rfl rfl rfl rfl rfl rfl)
      ⟨hdashboard.range, hdashboard.deps⟩ hrange hrepository rfl

/-- In every run, a reload selects what is selected, and the address carries the other parameters that it was
opened with, if the repositories that are chosen can be written. -/
theorem reload_restores {search : Str} {as : List Action}
    (hok : Runs.Guarded (step js) Writable (State.initial search) as)
    (hrun : Runs.run (step js) (State.initial search) as = some s) :
    (State.initial s.search).selection = s.selection ∧ otherParams s.search = otherParams search := by
  have h : (DashboardInv s ∧ ListInv s) ∧ AddressInv search s :=
    Runs.run_preserves_of_guarded (P := fun s => (DashboardInv s ∧ ListInv s) ∧ AddressInv search s)
      (fun _ _ _ h hok hstep =>
        ⟨⟨(h.1.1.step hstep).1, h.1.2.step h.1.1 hstep⟩, h.2.step h.1.1 h.1.2 hok hstep⟩)
      ⟨⟨DashboardInv.initial search, ListInv.initial search⟩, AddressInv.initial search⟩ hok hrun
  exact ⟨h.2.reload, h.2.others⟩

/-- A reload after the visit selects the range that was clicked and the repository that was chosen, and keeps
the parameter that the address was opened with. -/
theorem visited_reloads :
    (State.initial (visited.get visited_isSome).search).selection = ⟨lit "7d", lit "R_1"⟩ ∧
      otherParams (visited.get visited_isSome).search = otherParams (lit "?x=1") := by
  have hok : Runs.Guarded (step visitor) Writable (State.initial (lit "?x=1")) visit :=
    ⟨trivial, fun _ _ => ⟨trivial, fun _ _ => ⟨trivial, fun _ _ => ⟨trivial, fun _ _ => ⟨trivial, fun _ _ =>
      ⟨rfl, fun _ _ => ⟨trivial, fun _ _ => ⟨trivial, fun _ _ => ⟨trivial, fun _ _ => ⟨trivial, fun _ _ =>
        ⟨trivial, fun _ _ => trivial⟩⟩⟩⟩⟩⟩⟩⟩⟩⟩⟩
  obtain ⟨hreload, hothers⟩ := reload_restores hok (Option.some_get visited_isSome).symm
  exact ⟨hreload.trans (by decide), hothers⟩

end Ghpulse.Web.App
