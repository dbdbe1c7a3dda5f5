import Ghpulse.Health.Surface

/-!
# Errors are private

Two histories of ingest runs and requests that differ in their exceptions. Every program of the site is
related to its counterpart, by the rules for two runs, so every interleaving of them keeps the two sites
alike and the answers equal.

References: `backend/app.py`, `backend/api_dashboard.py`, `backend/ingest.py`.

The pairs of related programs follow the source function by function. A rule for two runs has one side for
each program, and asks that they take the same step; where a query raises in one history, it raises in the
other, and both go to their handlers.
-/

open Python Effect Interleave Ghpulse.Ingest

namespace Ghpulse.Health

open Dashboard (Body Failure)

variable {κ μ : Type}

/-! ## Alike histories

What may differ between the two histories: any exception, its text and its type, as long as one is raised
in both or in neither. For a run this includes why it did not come by a snapshot.
-/

/-- Sites that differ at most in the texts of errors. -/
structure AlikeSite (s s' : Site κ) : Prop where
  world : Alike s.world s'.world
  refreshing : s.refreshing = s'.refreshing
  keyLocked : s.keyLocked = s'.keyLocked
  jobs : s.jobs = s'.jobs

/-- A site looks like itself. -/
theorem AlikeSite.refl (s : Site κ) : AlikeSite s s := ⟨.refl s.world, rfl, rfl, rfl⟩

/-- Both raise, or neither does. -/
def AlikeFault (fault fault' : Option Exc) : Prop := fault.isSome = fault'.isSome

/-- Requests of `/health` that differ at most in what their queries raise. -/
structure AlikeHealth (input input' : HealthInput) : Prop where
  env : input.env = input'.env
  latestFault : AlikeFault input.latestFault input'.latestFault
  syncFault : AlikeFault input.syncFault input'.syncFault

/-- Computations that differ at most in what their transaction raises. -/
structure AlikeCompute (input input' : ComputeInput) : Prop where
  clock : input.clock = input'.clock
  fault : AlikeFault input.fault input'.fault

/-- Requests of `/api/dashboard` that differ at most in what they raise. -/
structure AlikeDashboard (input input' : DashboardInput) : Prop where
  call : input.call = input'.call
  compute : AlikeCompute input.compute input'.compute
  lookupAt : input.lookupAt = input'.lookupAt
  recheckAt : input.recheckAt = input'.recheckAt
  putAt : input.putAt = input'.putAt
  accepted : input.accepted = input'.accepted
  overlayFault : AlikeFault input.overlayFault input'.overlayFault

/-- Refreshes that differ at most in what they raise. -/
structure AlikeRefresh (input input' : RefreshInput) : Prop where
  compute : AlikeCompute input.compute input'.compute
  putAt : input.putAt = input'.putAt

/-- Calls that are the same, but for the exceptions that are raised at the same steps. -/
inductive AlikeCall (py : PyLib) : Call μ → Call μ → Prop where
  | ingest {input input' : RunInput μ} (h : AlikeInput py input input') :
      AlikeCall py (.ingest input) (.ingest input')
  | health {input input' : HealthInput} (h : AlikeHealth input input') :
      AlikeCall py (.health input) (.health input')
  | dashboard {input input' : DashboardInput} (h : AlikeDashboard input input') :
      AlikeCall py (.dashboard input) (.dashboard input')
  | refresh {input input' : RefreshInput} (h : AlikeRefresh input input') :
      AlikeCall py (.refresh input) (.refresh input')

/-- The same result, or two exceptions that are both answered as an internal error. -/
inductive AlikeResult : Except Failure Body → Except Failure Body → Prop where
  | same (result : Except Failure Body) : AlikeResult result result
  | raised (e e' : Exc) : AlikeResult (.error (.raised e)) (.error (.raised e'))

/-! ## `/health`

The handler answers every exception in the same way, so two queries that raise different ones are answered
alike.
-/

/-- A query whose answers look alike keeps two sites alike. -/
theorem related_query {α β : Type} {Q : α → β → Prop} {fault fault' : Option Exc}
    (h : AlikeFault fault fault') {f : Site κ → α} {g : Site κ → β}
    (hfg : ∀ s s', AlikeSite s s' → Q (f s) (g s')) :
    Related AlikeSite Q (query fault f) (query fault' g) := by
  cases fault with
  | none =>
    obtain rfl : fault' = none := Option.isSome_eq_false_iff.mp h.symm |> Option.isNone_iff_eq_none.mp
    exact .read hfg
  | some e =>
    obtain ⟨e', rfl⟩ := Option.isSome_iff_exists.mp h.symm
    exact .raise e e'

/-- `/health` is answered alike. -/
theorem related_health {input input' : HealthInput} (h : AlikeHealth input input') :
    Related (AlikeSite : Site κ → Site κ → Prop) Eq (health input) (health input') := by
  unfold health
  rw [h.env]
  refine Related.tryExcept ?_ fun _ _ => .pure rfl
  refine Related.bind (Q := fun r r' => r.map publicRun = r'.map publicRun) ?_ ?_
  · exact related_query h.latestFault fun _ _ hs => hs.world.db.latestRun
  intro latest latest' hlatest
  refine Related.bind (Q := fun s s' => s.map publicState = s'.map publicState) ?_ ?_
  · exact related_query h.syncFault fun _ _ hs => hs.world.db.sync
  intro sync sync' hsync
  refine Related.bind (Q := fun p p' => publicProgress p = publicProgress p') ?_ ?_
  · exact .read fun _ _ hs => hs.world.progress
  intro progress progress' hprogress
  refine Related.bind_eq (.ofExcept ?_) fun payload => .pure rfl
  rw [healthPayload_congr hlatest hsync hprogress]
  exact Agrees.refl _

/-! ## `/api/dashboard`

An exception of the computation is passed on as it is and becomes an internal error, whose answer has no
text of it. A request that is refused is refused alike, by its own text.
-/

/-- An exchange with the same answer on both sides keeps them alike. -/
theorem related_exchange {α : Type} {f g : Site κ → α × Site κ}
    (h : ∀ s s', AlikeSite s s' → (f s).1 = (g s').1 ∧ AlikeSite (f s).2 (g s').2) :
    Related AlikeSite Eq (exchange f) (exchange g) :=
  .atomic fun s s' hs => ⟨.ok (h s s' hs).1, (h s s' hs).2⟩

/-- The same change of the response cache. -/
theorem AlikeSite.setCache {s s' : Site κ} (h : AlikeSite s s') {cache cache' : Cache.TTLCache κ Body}
    (hcache : cache = cache') : AlikeSite (s.setCache cache) (s'.setCache cache') :=
  ⟨⟨h.world.db, h.world.nextRunId, h.world.runLocked, h.world.progress, hcache, h.world.broadcasts⟩,
    h.refreshing, h.keyLocked, h.jobs⟩

/-- The refreshes in flight are public. -/
theorem AlikeSite.setRefreshing {s s' : Site κ} (h : AlikeSite s s') (f : (κ → Bool) → κ → Bool) :
    AlikeSite { s with refreshing := f s.refreshing } { s' with refreshing := f s'.refreshing } :=
  ⟨h.world, congrArg f h.refreshing, h.keyLocked, h.jobs⟩

/-- The locks of the keys are public. -/
theorem AlikeSite.setKeyLocked {s s' : Site κ} (h : AlikeSite s s') (f : (κ → Bool) → κ → Bool) :
    AlikeSite { s with keyLocked := f s.keyLocked } { s' with keyLocked := f s'.keyLocked } :=
  ⟨h.world, h.refreshing, congrArg f h.keyLocked, h.jobs⟩

/-- The queued jobs are public. -/
theorem AlikeSite.setJobs {s s' : Site κ} (h : AlikeSite s s') (f : List Job → List Job) :
    AlikeSite { s with jobs := f s.jobs } { s' with jobs := f s'.jobs } :=
  ⟨h.world, h.refreshing, h.keyLocked, congrArg f h.jobs⟩

variable [DecidableEq κ] (setting : Setting κ)

omit [DecidableEq κ] in
/-- A dashboard is computed alike. -/
theorem related_compute (call : DashboardCall) {input input' : ComputeInput}
    (h : AlikeCompute input input') :
    Related AlikeSite AlikeResult (compute setting call input) (compute setting call input') := by
  have hfault : input.fault.isSome = input'.fault.isSome := h.fault
  unfold compute
  rw [h.clock]
  generalize input.fault = fault at hfault ⊢
  generalize input'.fault = fault' at hfault ⊢
  cases fault with
  | none =>
    obtain rfl : fault' = none :=
      Option.isSome_eq_false_iff.mp hfault.symm |> Option.isNone_iff_eq_none.mp
    refine .read fun s s' hs => ?_
    rw [hs.world.db.dashboard]
    exact .same _
  | some e =>
    obtain ⟨e', rfl⟩ := Option.isSome_iff_exists.mp hfault.symm
    exact .pure (.raised e e')

/-- The cache is looked up alike. -/
theorem related_getEntry (now : ℚ) (key : κ) :
    Related AlikeSite Eq (getEntry now key) (getEntry now key) :=
  related_exchange fun s s' hs => by
    have hentry := congrArg (fun c => (c.getEntry now key).1) hs.world.responseCache
    have hcache := congrArg (fun c => (c.getEntry now key).2) hs.world.responseCache
    exact ⟨hentry, hs.setCache hcache⟩

/-- A refresh is scheduled alike. -/
theorem related_scheduleRefresh (call : DashboardCall) (accepted : Bool) :
    Related AlikeSite Eq (scheduleRefresh setting call accepted)
      (scheduleRefresh setting call accepted) := by
  unfold scheduleRefresh
  refine Related.bind_eq (related_exchange fun s s' hs => ?_) fun added => ?_
  · refine ⟨congrArg (fun f => !f (setting.key call)) hs.refreshing, ?_⟩
    exact hs.setRefreshing fun f => Function.update f (setting.key call) true
  cases added with
  | false => exact .pure rfl
  | true =>
    refine Related.bind_eq (.read fun _ _ hs => ?_) fun generation => ?_
    · exact congrArg Cache.TTLCache.generation hs.world.responseCache
    cases accepted with
    | true => exact .modify fun _ _ hs => hs.setJobs fun jobs => jobs ++ [⟨call, generation⟩]
    | false =>
      exact .modify fun _ _ hs =>
        hs.setRefreshing fun f => Function.update f (setting.key call) false

/-- A miss is computed alike under its lock. -/
theorem related_computeLocked {input input' : DashboardInput} (h : AlikeDashboard input input') :
    Related AlikeSite AlikeResult (computeLocked setting input) (computeLocked setting input') := by
  unfold computeLocked
  rw [h.call, h.recheckAt, h.putAt]
  refine (related_getEntry input'.recheckAt _).bind_eq fun entry => ?_
  cases entry with
  | some hit => exact .pure (.same _)
  | none =>
    refine (related_compute setting input'.call h.compute).bind fun result result' hresult => ?_
    cases hresult with
    | raised e e' => exact .pure (.raised e e')
    | same =>
      cases result with
      | error e => exact .pure (.same _)
      | ok body =>
        refine Related.bind_eq (.modify fun s s' hs => hs.setCache ?_) fun _ => .pure (.same _)
        rw [hs.world.responseCache]

/-- The cached endpoint is answered alike. -/
theorem related_cachedDashboard {input input' : DashboardInput} (h : AlikeDashboard input input') :
    Related AlikeSite AlikeResult (cachedDashboard setting input) (cachedDashboard setting input') := by
  unfold cachedDashboard
  rw [h.call, h.lookupAt, h.accepted]
  split_ifs
  · exact related_compute setting input'.call h.compute
  refine (related_getEntry input'.lookupAt _).bind_eq fun entry => ?_
  cases entry with
  | some hit =>
    obtain ⟨value, stale⟩ := hit
    cases stale with
    | false => exact .pure (.same _)
    | true =>
      exact (related_scheduleRefresh setting input'.call input'.accepted).bind_eq fun _ =>
        .pure (.same _)
  | none =>
    refine Related.bind_eq (.await (fun s s' hs => ?_) fun s s' hs => ?_) fun _ => ?_
    · rw [hs.keyLocked]
    · exact hs.setKeyLocked fun f => Function.update f (setting.key input'.call) true
    refine Related.tryFinally (fun f hf s s' hs => ?_) (related_computeLocked setting h)
    obtain rfl := List.mem_singleton.mp hf
    exact hs.setKeyLocked fun f => Function.update f (setting.key input'.call) false

/-- So is its route, with the errors that it maps. -/
theorem related_dashboardRoute {input input' : DashboardInput} (h : AlikeDashboard input input') :
    Related AlikeSite Eq (dashboardRoute setting input) (dashboardRoute setting input') := by
  unfold dashboardRoute
  refine Related.tryExcept ?_ fun _ _ => .pure rfl
  refine (related_cachedDashboard setting h).bind fun result result' hresult => ?_
  cases hresult with
  | raised e e' => exact .pure rfl
  | same =>
    cases result with
    | ok body =>
      refine Related.bind_eq (related_query h.overlayFault fun _ _ hs => ?_) fun _ => .pure rfl
      exact syncStatus_congr hs.world.db.sync
    | error failure => cases failure <;> exact .pure rfl

omit [DecidableEq κ] in
/-- A worker takes the same job. -/
theorem related_takeJob : Related (AlikeSite : Site κ → Site κ → Prop) Eq takeJob takeJob :=
  .step (fun _ _ hs => congrArg (fun jobs => !jobs.isEmpty) hs.jobs)
    (fun _ _ hs _ _ => hs.setJobs List.tail)
    fun _ _ hs _ _ => .done (.ok (congrArg List.head? hs.jobs))

/-- A background refresh keeps two sites alike. -/
theorem related_refresh {input input' : RefreshInput} (h : AlikeRefresh input input') :
    Related AlikeSite Eq (refresh setting input) (refresh setting input') := by
  unfold refresh
  rw [h.putAt]
  refine related_takeJob.bind_eq fun job => ?_
  cases job with
  | none => exact .pure rfl
  | some job =>
    -- both leave the registry of refreshes in the same way
    have hdiscard : Related AlikeSite Eq
        (Program.modify fun s : Site κ =>
          { s with refreshing := Function.update s.refreshing (setting.key job.call) false } :
          Program Exc (Site κ) Unit)
        (Program.modify fun s : Site κ =>
          { s with refreshing := Function.update s.refreshing (setting.key job.call) false }) :=
      .modify fun _ _ hs => hs.setRefreshing fun f => Function.update f (setting.key job.call) false
    refine (related_compute setting job.call h.compute).bind fun result result' hresult => ?_
    cases hresult with
    | raised e e' => exact hdiscard
    | same =>
      cases result with
      | error e => exact hdiscard
      | ok body =>
        refine Related.bind_eq (.modify fun s s' hs => hs.setCache ?_) fun _ => hdiscard
        rw [hs.world.responseCache]

/-! ## Histories

Interleavings are lists of actions, the same list for both histories. So the theorem is about every
schedule and every moment of it.
-/

/-- Calls that differ in their exceptions look alike. -/
theorem related_code {call call' : Call μ} (h : AlikeCall setting.py call call') :
    Related AlikeSite Eq (code setting call) (code setting call') := by
  cases h with
  | ingest h =>
    refine Related.bind_eq ?_ fun outcome => .pure rfl
    refine (related_runIngest h).zoom (fun s s' hs => hs.world) fun s s' hs w w' hw => ?_
    exact ⟨hw, hs.refreshing, hs.keyLocked, hs.jobs⟩
  | health h => exact (related_health h).bind_eq fun reply => .pure rfl
  | dashboard h => exact (related_dashboardRoute setting h).bind_eq fun reply => .pure rfl
  | refresh h => exact (related_refresh setting h).bind_eq fun _ => .pure rfl

/-- The site after a history of calls, as the scheduler has interleaved them. -/
def served (site : Site κ) (history : List (Action (Call μ))) : Option (State Exc (Site κ) Answer) :=
  Runs.run (step (code setting)) (.init site) history

/-- In every ingest run of the history that fails, the statements that record the failure succeed. -/
def RecordsSucceed (site : Site κ) (history : List (Action (Call μ))) : Prop :=
  Runs.Guarded (step (code setting)) Succeeds (.init site : State Exc (Site κ) Answer) history

/-- Clients have seen the same: the same calls have returned, with the same answers, and the same events
were broadcast. -/
structure SamePublic (s s' : State Exc (Site κ) Answer) : Prop where
  answers : ∀ n answer, s.threads n = some (.done (.ok answer)) ↔
    s'.threads n = some (.done (.ok answer))
  broadcasts : s.shared.world.broadcasts = s'.shared.world.broadcasts

omit [DecidableEq κ] in
/-- What looks alike is the same in every public answer. -/
theorem samePublic_of_related {s s' : State Exc (Site κ) Answer}
    (h : State.Related AlikeSite Eq s s') : SamePublic s s' where
  answers n answer := by
    constructor
    · intro hn
      obtain ⟨answer', hn', rfl⟩ := h.result hn
      exact hn'
    · intro hn'
      obtain ⟨answer', hn, rfl⟩ := h.result' hn'
      exact hn
  broadcasts := h.shared.world.broadcasts

variable {setting}

/-- Error text never reaches a public surface: two histories that differ only in the exceptions that
their failures carry show clients the same, in every interleaving and at every moment. -/
theorem errors_private {site : Site κ} {history history' : List (Action (Call μ))}
    (halike : List.Forall₂ (Action.Related (AlikeCall setting.py)) history history')
    (hrecords : RecordsSucceed setting site history)
    (hrecords' : RecordsSucceed setting site history') {s : State Exc (Site κ) Answer}
    (hserved : served setting site history = some s) :
    ∃ s', served setting site history' = some s' ∧ SamePublic s s' := by
  have hcode (call call' : Call μ) (h : AlikeCall setting.py call call') :
      Related AlikeSite Eq (code setting call) (code setting call') := related_code setting h
  have hinit : State.Related AlikeSite Eq (State.init site : State Exc (Site κ) Answer)
      (State.init site) := .init (.refl site)
  obtain ⟨s', hserved', hrelated⟩ := run_of_related hcode hinit halike hrecords hrecords' hserved
  exact ⟨s', hserved', samePublic_of_related hrelated⟩

/-! ## Two histories

Three runs that fail for different reasons in the two histories, among them a missing token against a
missing user, and one error that holds a secret.
-/

/-- A site whose last commit was at the time 0. -/
def sampleSite : Site Unit where
  world := .start { initialisedDb 0 with
    syncState := some ⟨some 0, some 0, some 0, some (lit "success"), none, 0⟩ } 300
  refreshing _ := false
  keyLocked _ := false
  jobs := []

/-- A dashboard with one key. -/
def sampleSetting : Setting Unit := ⟨samplePy, fun _ => true, fun _ _ => true, fun _ => ()⟩

/-- A run with a token and a user, either of which may be missing. -/
def configured (token user : Option Str) (fetched : Fetched Unit) : RunInput Unit :=
  { quietInput fun _ _ => fetched with env := ⟨token, none, user, none⟩ }

/-- Three runs, and then a request of `/health`. -/
def leakHistory (first second third : RunInput Unit) : List (Action (Call Unit)) :=
  .call 0 (.ingest first) :: List.replicate 9 (.step 0) ++
    .call 1 (.ingest second) :: List.replicate 9 (.step 1) ++
    .call 2 (.ingest third) :: List.replicate 9 (.step 2) ++
    .call 3 (.health ⟨sampleEnv, none, none⟩) :: List.replicate 3 (.step 3)

/-- A run without a user, one whose snapshot is refused, and one whose source times out. -/
def timeoutHistory : List (Action (Call Unit)) :=
  leakHistory (configured (some (lit "token")) none (.raised []))
    (configured (some (lit "token")) (some (lit "me")) (.returned .null))
    (configured (some (lit "token")) (some (lit "me")) (.raised (lit "timeout")))

/-- A run without a token, one whose snapshot is of another account, and one whose source fails with a
secret in its error. -/
def secretHistory : List (Action (Call Unit)) :=
  leakHistory (configured none (some (lit "me")) (.raised []))
    (configured (some (lit "token")) (some (lit "you")) (.returned (sampleJson 7)))
    (configured (some (lit "token")) (some (lit "me")) (.sourceError (lit "bad credentials ghp_1")))

/-- In both histories the record of the failure succeeds. -/
theorem recordsSucceed_of {history : List (Action (Call Unit))}
    (h : history = timeoutHistory ∨ history = secretHistory) :
    RecordsSucceed sampleSetting sampleSite history := by
  rcases h with rfl | rfl
  all_goals
    iterate 3
      refine ⟨trivial, fun _ h => ?_⟩
      cases h
      iterate 9
        refine ⟨fun op next ht => by cases ht; rfl, fun _ h => ?_⟩
        cases h
    refine ⟨trivial, fun _ h => ?_⟩
    cases h
    iterate 3
      refine ⟨fun op next ht => by cases ht; rfl, fun _ h => ?_⟩
      cases h
    trivial

/-- The request is answered alike, whatever the runs have failed with. -/
theorem leak_private : ∃ s s' payload,
    served sampleSetting sampleSite timeoutHistory = some s ∧
      served sampleSetting sampleSite secretHistory = some s' ∧ SamePublic s s' ∧
      s.threads 3 = some (.done (.ok (.health (.payload payload)))) := by
  have hfailed {input input' : RunInput Unit} {e e' : Exc} (h : acquireValidated samplePy input = .error e)
      (h' : acquireValidated samplePy input' = .error e') :
      Agrees Eq (acquireValidated samplePy input) (acquireValidated samplePy input') := by
    rw [h, h']
    exact .error e e'
  have halike : List.Forall₂ (Action.Related (AlikeCall samplePy)) timeoutHistory secretHistory := by
    refine .cons (.call 0 (.ingest ⟨rfl, rfl, hfailed rfl rfl, fun _ => rfl⟩)) ?_
    iterate 9 refine .cons (.step 0) ?_
    refine .cons (.call 1 (.ingest ⟨rfl, rfl, hfailed rfl rfl, fun _ => rfl⟩)) ?_
    iterate 9 refine .cons (.step 1) ?_
    refine .cons (.call 2 (.ingest ⟨rfl, rfl, hfailed rfl rfl, fun _ => rfl⟩)) ?_
    iterate 9 refine .cons (.step 2) ?_
    refine .cons (.call 3 (.health ⟨rfl, rfl, rfl⟩)) ?_
    iterate 3 refine .cons (.step 3) ?_
    exact .nil
  obtain ⟨s', hserved', hsame⟩ := errors_private halike (recordsSucceed_of (.inl rfl))
    (recordsSucceed_of (.inr rfl)) rfl
  exact ⟨_, s', _, rfl, hserved', hsame, rfl⟩

end Ghpulse.Health
