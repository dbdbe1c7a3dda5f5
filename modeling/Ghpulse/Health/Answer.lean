import Ghpulse.Health.Surface
import Ghpulse.Library.PyFloat
import Mathlib.Algebra.Order.Monoid.WithTop
import Mathlib.Data.Int.ConditionallyCompleteOrder

/-!
# What `/health` blames

`/health` answers every exception with `database unavailable`, so each step after the queries matters that
can raise: the configured threshold becomes a `timedelta`, and the payload is rendered. Rows as the tables
hold them and counters of list elements are always rendered. What remains is a threshold of `10 ^ 9` days
or more, which `float` accepts and `timedelta` refuses.

The order of the source matters here: both queries and everything after them are in one `try`, and any
exception is answered with 503. The condition of `blamesOnlyDatabase_iff` is on the configured text and
the age of the last success, and `nan` leaves open what a threshold of NaN should mean.

Reference: `backend/app.py`.
-/

open Python Effect Interleave Ghpulse.Ingest

namespace Ghpulse.Health

/-! ## The threshold

`float` reads more than numbers: `inf` and `nan` are texts it accepts, and `max` with a NaN returns its
first argument.
-/

/-- `_STALE_AFTER_SECONDS`. -/
def staleAfterDefault : ℕ := 2 * 60 * 60

/-- `_stale_after_seconds`, from `GHPULSE_STALE_AFTER_SECONDS` if that is set. -/
def staleAfterSeconds (text : Option Str) : Double :=
  match float (text.getD (natText staleAfterDefault)) with
  -- NaN is not greater than 0.0, so it becomes 0.0 here
  | some seconds => Double.zero.max seconds
  | none => Double.nearest staleAfterDefault

/-- The exception of a refused `timedelta`. -/
def refusalExc : Refusal → Exc
  | .nan => ⟨lit "ValueError", lit "cannot convert float NaN to integer"⟩
  | .infinite => ⟨lit "OverflowError", lit "cannot convert float infinity to integer"⟩
  | .days d => ⟨lit "OverflowError",
      if -2 ^ 31 ≤ d ∧ d < 2 ^ 31 then
        lit "days=" ++ intText d ++ lit "; must have magnitude <= 999999999"
      else lit "Python int too large to convert to C int"⟩

/-- `timedelta(seconds=_stale_after_seconds())`, in microseconds. -/
def staleAfter (text : Option Str) : Except Exc ℤ :=
  (timedelta (staleAfterSeconds text)).mapError refusalExc

/-! ## The response

The payload as a list of texts and a list of integers, since these are what the renderer can refuse.
-/

/-- The texts of an entry of the audit. -/
def LastIngest.texts (run : LastIngest) : List Str :=
  run.trigger :: (run.error.toList ++ run.errorCode.toList)

/-- The texts of a payload, without its instants and its phase. -/
def Payload.texts (p : Payload) : List Str :=
  p.version :: (p.lastError.toList ++ p.lastErrorCode.toList ++ p.syncStatus.toList ++
    p.lastAttempt.status.toList ++ p.lastAttempt.error.toList ++ p.lastAttempt.code.toList ++
    p.lastIngest.toList.flatMap LastIngest.texts)

/-- The integers of the progress. -/
def ProgressDetail.integers (detail : ProgressDetail) : List ℤ :=
  (detail.done : ℤ) :: (detail.total : ℤ) :: detail.runId.toList

/-- The integers of a payload. -/
def Payload.integers (p : Payload) : List ℤ :=
  p.ingestProgress.toList.flatMap ProgressDetail.integers ++ p.lastIngest.toList.map LastIngest.id

/-- An integer that `orjson` writes. -/
def writable (z : ℤ) : Bool := decide (-2 ^ 63 ≤ z ∧ z < 2 ^ 64)

/-- `ORJSONResponse(payload)`: a lone surrogate and an integer of more than 64 bits are refused. -/
def render (p : Payload) : Except Exc Payload :=
  if !p.texts.all encodable then
    .error ⟨lit "JSONEncodeError", lit "str is not valid UTF-8: surrogates not allowed"⟩
  else if !p.integers.all writable then
    .error ⟨lit "JSONEncodeError", lit "Integer exceeds 64-bit range"⟩
  else .ok p

/-- `health`, from what its queries return or raise, and from the progress. -/
def respond (env : Env) (latest : Except Exc (Option IngestRun)) (sync : Except Exc (Option SyncState))
    (progress : Progress) : HealthReply :=
  let response : Except Exc Payload := do
    let latest ← latest
    let sync ← sync
    -- not a query, but within the same `try`
    let payload ← healthPayload env latest sync progress
    render payload
  match response with
  | .ok payload => .payload payload
  | .error _ => .unavailable (unavailable env)

/-- The status code. -/
def HealthReply.status : HealthReply → ℕ
  | .payload _ => 200
  | .unavailable _ => 503

/-! ## Rendering

A text that a column holds has no lone surrogate, and an id fits into 64 bits. So nothing that comes from
the database is refused.
-/

/-- What the progress can hold: counters of list elements, and the id of an audit row. -/
structure Counted (p : Progress) : Prop where
  /-- `sys.maxsize`. -/
  done : p.done ≤ 2 ^ 63 - 1
  total : p.total ≤ 2 ^ 63 - 1
  runId : ∀ id ∈ p.runId, Sql.fitsBigint id = true

theorem writable_of_fitsBigint {z : ℤ} (h : Sql.fitsBigint z = true) : writable z = true := by
  unfold Sql.fitsBigint at h
  unfold writable
  rw [decide_eq_true_eq] at h ⊢
  omega

theorem writable_natCast {n : ℕ} (h : n ≤ 2 ^ 63 - 1) : writable n = true := by
  unfold writable
  rw [decide_eq_true_eq]
  omega

theorem encodable_of_storable {s : Str} (h : Sql.storable s = true) : encodable s = true :=
  (Bool.and_eq_true_iff.mp h).1

/-- An optional text is encodable if the text is. -/
theorem all_encodable_ite (b : Bool) {s : Str} (h : encodable s = true) :
    (if b then some s else none).toList.all encodable = true := by
  cases b with
  | false => rfl
  | true => exact (Bool.and_true _).trans h

section Render

variable {env : Env} {latest : Option IngestRun} {sync : Option SyncState} {progress : Progress}
  {payload : Payload}

/-- The entry of an audit row that the table holds can be encoded. -/
theorem encodable_lastIngestEntry {run : IngestRun} (hrun : run.check = true) (failed : Bool) :
    (lastIngestEntry (if failed then some syncFailureMessage else none) run).texts.all encodable =
      true := by
  have htrigger : encodable run.trigger = true := by
    simp only [IngestRun.check, Bool.and_eq_true] at hrun
    exact encodable_of_storable hrun.1.1.1.1.2
  have herror : (if truthy run.error then if failed then some syncFailureMessage else none
      else none).toList.all encodable = true := by
    cases truthy run.error with
    | false => rfl
    | true => exact all_encodable_ite failed (by decide)
  have hcode := all_encodable_ite (truthy run.error) (s := syncFailureCode) (by decide)
  simp only [LastIngest.texts, lastIngestEntry, List.all_cons, List.all_append, htrigger, herror, hcode,
    Bool.and_self]

/-- The status that is shown is one that the column holds. -/
theorem encodable_status (hsync : ∀ s ∈ sync, s.check = true) :
    (if truthy (sync.bind SyncState.lastAttemptStatus) then sync.bind SyncState.lastAttemptStatus
      else none).toList.all encodable = true := by
  cases hstatus : sync.bind SyncState.lastAttemptStatus with
  | none => rfl
  | some status =>
    obtain ⟨s, rfl, hs⟩ := Option.bind_eq_some_iff.mp hstatus
    have hcheck := hsync s rfl
    simp only [SyncState.check, hs, Option.all_some, Bool.and_eq_true] at hcheck
    exact all_encodable_ite _ (encodable_of_storable hcheck.1.2)

/-- The counters and the id that are shown can be written. -/
theorem writable_progressDetail (hcounted : Counted progress) :
    ((progressDetail progress).toList.flatMap ProgressDetail.integers).all writable = true := by
  unfold progressDetail
  split_ifs with hidle
  · rfl
  · have hid : progress.runId.toList.all writable = true := by
      rw [List.all_eq_true]
      intro id hid
      exact writable_of_fitsBigint (hcounted.runId id (Option.mem_toList.mp hid))
    simp only [Option.toList_some, List.flatMap_singleton, ProgressDetail.integers, List.all_cons,
      writable_natCast hcounted.done, writable_natCast hcounted.total, hid, Bool.and_self]

/-- A payload of rows that the tables hold, and of counters of list elements, is rendered. -/
theorem render_healthPayload (hversion : encodable env.version = true)
    (hlatest : ∀ r ∈ latest, r.check = true) (hsync : ∀ s ∈ sync, s.check = true)
    (hcounted : Counted progress) (h : healthPayload env latest sync progress = .ok payload) :
    render payload = .ok payload := by
  obtain ⟨stale, -, h⟩ := bind_eq_ok.mp h
  cases h
  have hmessage := all_encodable_ite (hasSyncError latest sync progress) (s := syncFailureMessage)
    (by decide)
  have hcode := all_encodable_ite (hasSyncError latest sync progress) (s := syncFailureCode) (by decide)
  have hlastCode (publicError : Option Str) :
      (if truthy publicError then some syncFailureCode else none).toList.all encodable = true :=
    all_encodable_ite _ (by decide)
  have hstatus := encodable_status hsync
  have htexts : ((latest.map (lastIngestEntry (if hasSyncError latest sync progress then
      some syncFailureMessage else none))).toList.flatMap LastIngest.texts).all encodable = true := by
    cases latest with
    | none => rfl
    | some run =>
      rw [Option.map_some, Option.toList_some, List.flatMap_singleton]
      exact encodable_lastIngestEntry (hlatest run rfl) _
  have hid (publicError : Option Str) : ((latest.map (lastIngestEntry publicError)).toList.map
      LastIngest.id).all writable = true := by
    cases latest with
    | none => rfl
    | some run =>
      have hcheck := hlatest run rfl
      simp only [IngestRun.check, Bool.and_eq_true] at hcheck
      exact (Bool.and_true _).trans (writable_of_fitsBigint hcheck.1.1.1.1.1)
  simp only [render, Payload.texts, Payload.integers, List.all_cons, List.all_append, hversion, hmessage,
    hcode, hlastCode, hstatus, htexts, writable_progressDetail hcounted, hid, Bool.and_self,
    Bool.not_true, Bool.false_eq_true, ↓reduceIte]

/-- Such a payload is the response. -/
theorem respond_of_payload (hversion : encodable env.version = true)
    (hlatest : ∀ r ∈ latest, r.check = true) (hsync : ∀ s ∈ sync, s.check = true)
    (hcounted : Counted progress) (h : healthPayload env latest sync progress = .ok payload) :
    respond env (.ok latest) (.ok sync) progress = .payload payload := by
  have hrender := render_healthPayload hversion hlatest hsync hcounted h
  have hresponse : (healthPayload env latest sync progress >>= render) = .ok payload :=
    bind_eq_ok.mpr ⟨payload, h, hrender⟩
  show (match healthPayload env latest sync progress >>= render with
    | .ok payload => HealthReply.payload payload
    | .error _ => .unavailable (unavailable env)) = _
  rw [hresponse]

/-- An exception after the queries is blamed on the database. -/
theorem respond_of_error {e : Exc} (h : healthPayload env latest sync progress = .error e) :
    respond env (.ok latest) (.ok sync) progress = .unavailable (unavailable env) := by
  show (match healthPayload env latest sync progress >>= render with
    | .ok payload => HealthReply.payload payload
    | .error _ => .unavailable (unavailable env)) = _
  rw [h]
  rfl

/-- What a query returns or raises. -/
def queried {α : Type} (fault : Option Exc) (row : α) : Except Exc α :=
  match fault with
  | some e => .error e
  | none => .ok row

/-- The program of the endpoint, executed alone, gives the response for what it reads. -/
theorem run_health {κ : Type} (input : HealthInput) (s : Site κ)
    (hversion : encodable input.env.version = true)
    (hsync : ∀ row ∈ s.world.db.syncState, row.check = true) (hcounted : Counted s.world.progress) :
    (health input).run s = (.ok (respond input.env (queried input.latestFault (latestRun s.world.db))
      (queried input.syncFault s.world.db.syncState) s.world.progress), s) := by
  obtain ⟨env, latestFault, syncFault⟩ := input
  cases latestFault with
  | some e => rfl
  | none =>
    cases syncFault with
    | some e => rfl
    | none =>
      have hlatest : ∀ r ∈ latestRun s.world.db, r.check = true := fun r hr =>
        s.world.db.ingestRuns.checked r (mem_of_latestRun hr)
      -- the three reads change nothing
      show (Program.tryExcept
        (Program.ofExcept (healthPayload env (latestRun s.world.db) s.world.db.syncState s.world.progress)
          >>= fun payload => (pure (HealthReply.payload payload) : Program Exc (Site κ) HealthReply))
        fun _ => pure (HealthReply.unavailable (unavailable env))).run s =
          (.ok (respond env (.ok (latestRun s.world.db)) (.ok s.world.db.syncState) s.world.progress), s)
      cases hpayload : healthPayload env (latestRun s.world.db) s.world.db.syncState s.world.progress with
      | error e =>
        rw [respond_of_error hpayload]
        rfl
      | ok payload =>
        rw [respond_of_payload hversion hlatest hsync hcounted hpayload]
        rfl

end Render

/-! ## Requests

A request is any state of the database and the progress in which these facts hold, together with two
queries that may raise.
-/

/-- What a request of `/health` meets; a connection that fails counts to its queries. The texts and the ids
of the rows are those that the columns hold, the version is read from UTF-8, and the counters count list
elements. -/
structure Request where
  version : Str
  /-- `GHPULSE_STALE_AFTER_SECONDS`. -/
  staleAfterSeconds : Option Str
  staleAt : Instant
  now : Instant
  latest : Except Exc (Option IngestRun)
  sync : Except Exc (Option SyncState)
  progress : Progress
  version_encodable : encodable version = true
  latest_check : ∀ r, latest = .ok (some r) → r.check = true
  sync_check : ∀ s, sync = .ok (some s) → s.check = true
  counted : Counted progress

/-- What `_health_payload` reads besides the database and the progress. -/
def Request.env (r : Request) : Env := ⟨r.version, staleAfter r.staleAfterSeconds, r.staleAt, r.now⟩

/-- The answer. -/
def Request.reply (r : Request) : HealthReply := respond r.env r.latest r.sync r.progress

section Reply

variable {r : Request} {latest : Option IngestRun} {sync : Option SyncState}

/-- If the last success can be compared with the threshold, the request is answered. -/
theorem Request.reply_of_stale (hlatest : r.latest = .ok latest) (hsync : r.sync = .ok sync) {stale : Bool}
    (h : isStale r.env (lastSuccessValue latest sync) = .ok stale) :
    ∃ payload, r.reply = .payload payload ∧ payload.db = true ∧ payload.stale = stale := by
  obtain ⟨payload, hpayload, hdb, hstale⟩ : ∃ payload,
      healthPayload r.env latest sync r.progress = .ok payload ∧ payload.db = true ∧
        payload.stale = stale := ⟨_, bind_eq_ok.mpr ⟨stale, h, rfl⟩, rfl, rfl⟩
  refine ⟨payload, ?_, hdb, hstale⟩
  rw [Request.reply, hlatest, hsync]
  exact respond_of_payload r.version_encodable (fun run hrun => r.latest_check run (by rw [hlatest, hrun]))
    (fun s hs => r.sync_check s (by rw [hsync, hs])) r.counted hpayload

/-- If the comparison raises, the database is blamed. -/
theorem Request.reply_of_raised (hlatest : r.latest = .ok latest) (hsync : r.sync = .ok sync) {e : Exc}
    (h : isStale r.env (lastSuccessValue latest sync) = .error e) :
    r.reply = .unavailable (unavailable r.env) := by
  have hpayload : healthPayload r.env latest sync r.progress = .error e := by
    rw [healthPayload, h]
    rfl
  rw [Request.reply, hlatest, hsync]
  exact respond_of_error hpayload

end Reply

/-! ## The configured threshold

The specification of the threshold is a number of microseconds, or none if it is infinite. The code is
right where the `timedelta` exists and compares like it.
-/

/-- The configured threshold in microseconds: the default if the text is not a number, never negative, and
without a limit if it is infinite. `nan` is what NaN stands for. -/
def threshold (nan : ℤ) (text : Option Str) : WithTop ℤ :=
  match text.bind float with
  | none => ((staleAfterDefault * 1000000 : ℤ) : WithTop ℤ)
  | some (.finite q _) => ((max 0 (micros q) : ℤ) : WithTop ℤ)
  | some (.inf true) => ((0 : ℤ) : WithTop ℤ)
  | some (.inf false) => ⊤
  | some .nan => (nan : WithTop ℤ)

/-- A number that can be compared with the age of the last success: a `timedelta` holds it, or it is
negative. NaN is compared as 0. -/
def Comparable (nan age : ℤ) : Double → Prop
  | .finite q _ => q < 86400000000000
  | .inf negative => negative = true
  | .nan => age ≤ nan ↔ age ≤ 0

/-- The default is a number of seconds without rounding. -/
theorem nearest_default : ∃ h, Double.nearest staleAfterDefault = .finite (7200 : ℤ) h := by
  have hdefault : ((staleAfterDefault : ℕ) : ℚ) = ((7200 : ℤ) : ℚ) := by norm_num [staleAfterDefault]
  rw [hdefault]
  exact Double.nearest_intCast (by norm_num)

/-- A text that is not a number configures the default, as does no text. -/
theorem staleAfterSeconds_of_not_number {text : Option Str} (h : text.bind float = none) :
    staleAfterSeconds text = Double.nearest staleAfterDefault := by
  cases text with
  | none =>
    obtain ⟨hn, hnearest⟩ := nearest_default
    rw [staleAfterSeconds, Option.getD_none, float_natText, hnearest]
    exact (Double.zero_max_finite hn).trans (if_pos (by norm_num))
  | some s =>
    rw [Option.bind_some] at h
    rw [staleAfterSeconds, Option.getD_some, h]

theorem staleAfterSeconds_of_number {text : Option Str} {x : Double} (h : text.bind float = some x) :
    staleAfterSeconds text = Double.zero.max x := by
  obtain ⟨s, rfl, hs⟩ := Option.bind_eq_some_iff.mp h
  rw [staleAfterSeconds, Option.getD_some, hs]

/-- The `timedelta` exists and compares like the configured threshold exactly if the number it is made of
is comparable. -/
theorem staleAfter_meets (nan age : ℤ) (text : Option Str) :
    (∃ limit, staleAfter text = .ok limit ∧ (age ≤ limit ↔ (age : WithTop ℤ) ≤ threshold nan text)) ↔
      ∀ x, text.bind float = some x → Comparable nan age x := by
  have hmeets {x : Double} (hx : text.bind float = some x) {limit : ℤ}
      (hlimit : timedelta (Double.zero.max x) = .ok limit) : staleAfter text = .ok limit := by
    rw [staleAfter, staleAfterSeconds_of_number hx, hlimit]
    rfl
  have hinfinite : timedelta (Double.zero.max (.inf false)) = .error .infinite := rfl
  -- where the `timedelta` raises there is no limit at all
  have hraises {x : Double} (hx : text.bind float = some x) {refusal : Refusal}
      (hrefusal : timedelta (Double.zero.max x) = .error refusal) (limit : ℤ) :
      staleAfter text ≠ .ok limit := by
    rw [staleAfter, staleAfterSeconds_of_number hx, hrefusal]
    exact fun h => by cases h
  cases htext : text.bind float with
  | none =>
    obtain ⟨hn, hnearest⟩ := nearest_default
    have hdefault : staleAfter text = .ok 7200000000 := by
      rw [staleAfter, staleAfterSeconds_of_not_number htext, hnearest,
        timedelta_of_nonneg hn (by norm_num), if_pos (by norm_num), micros_intCast]
      rfl
    refine iff_of_true ⟨_, hdefault, ?_⟩ fun x hx => by cases hx
    rw [threshold, htext, WithTop.coe_le_coe]
    rfl
  | some x =>
    cases x with
    | finite q h =>
      by_cases hq : q < 86400000000000
      · refine iff_of_true ⟨_, hmeets htext ((timedelta_max_zero h).trans (if_pos hq)), ?_⟩ ?_
        · rw [threshold, htext, WithTop.coe_le_coe]
        · rintro _ ⟨rfl⟩
          exact hq
      · -- 10 ^ 9 days or more: the `timedelta` raises
        refine iff_of_false ?_ fun hall => hq (hall _ rfl)
        rintro ⟨limit, hlimit, -⟩
        exact hraises htext ((timedelta_max_zero h).trans (if_neg hq)) limit hlimit
    | inf negative =>
      cases negative with
      | false =>
        refine iff_of_false ?_ fun hall => Bool.false_ne_true (hall _ rfl)
        rintro ⟨limit, hlimit, -⟩
        exact hraises htext hinfinite limit hlimit
      | true =>
        refine iff_of_true ⟨0, hmeets htext timedelta_zero, ?_⟩ ?_
        · rw [threshold, htext, WithTop.coe_le_coe]
        · rintro _ ⟨rfl⟩
          rfl
    | nan =>
      -- both sides compare the age, with 0 and with what NaN stands for
      have hzero : staleAfter text = .ok 0 := hmeets htext timedelta_zero
      rw [threshold, htext, WithTop.coe_le_coe, hzero]
      constructor
      · rintro ⟨limit, hlimit, hiff⟩ x ⟨rfl⟩
        cases hlimit
        exact hiff.symm
      · intro hall
        exact ⟨0, rfl, (hall _ rfl).symm⟩

/-- The threshold of a number is that number, to the microsecond. -/
theorem threshold_near {nan : ℤ} {text : Option Str} {q : ℚ} {h : Significant q}
    (htext : text.bind float = some (.finite q h)) (h0 : 0 ≤ q) :
    ∃ limit : ℤ, threshold nan text = limit ∧ |(limit : ℚ) - 1000000 * q| ≤ 1 / 2 + 1 / 2 ^ 34 := by
  refine ⟨micros q, ?_, abs_micros_sub_le h0⟩
  rw [threshold, htext]
  exact congrArg WithTop.some (max_eq_right (micros_nonneg h0))

/-! ## Which failures are blamed on the database

The theorem has no hypotheses: for every request, the database is blamed rightly exactly if the threshold
can be held wherever it is compared.
-/

/-- The answer is 200, and `stale` compares the last success with the configured threshold; `nan` is what
NaN stands for. -/
def Request.Answered (r : Request) (nan : ℤ) (latest : Option IngestRun) (sync : Option SyncState) : Prop :=
  ∃ payload, r.reply = .payload payload ∧ payload.db = true ∧
    (payload.stale = false ↔ ∃ t, lastSuccessValue latest sync = some t ∧
      ((r.staleAt - t : ℤ) : WithTop ℤ) ≤ threshold nan r.staleAfterSeconds)

/-- The database is blamed only for failures of the queries. -/
structure BlamesOnlyDatabase (nan : ℤ) (r : Request) : Prop where
  answered : ∀ latest sync, r.latest = .ok latest → r.sync = .ok sync → r.Answered nan latest sync
  unavailable : r.reply.status = 503 → (∃ e, r.latest = .error e) ∨ ∃ e, r.sync = .error e

/-- Wherever the age of a last success is compared with a configured number, it can be. -/
def Request.Holdable (nan : ℤ) (r : Request) : Prop :=
  ∀ latest sync t, r.latest = .ok latest → r.sync = .ok sync → lastSuccessValue latest sync = some t →
    ∀ x, r.staleAfterSeconds.bind float = some x → Comparable nan (r.staleAt - t) x

section Answered

variable {r : Request} {latest : Option IngestRun} {sync : Option SyncState}

/-- Without a last success the threshold is not read. -/
theorem Request.answered_of_none (nan : ℤ) (hlatest : r.latest = .ok latest) (hsync : r.sync = .ok sync)
    (hlast : lastSuccessValue latest sync = none) : r.Answered nan latest sync := by
  have hstale : isStale r.env (lastSuccessValue latest sync) = .ok true := by
    rw [hlast, isStale]
  obtain ⟨payload, hreply, hdb, hstale⟩ := r.reply_of_stale hlatest hsync hstale
  refine ⟨payload, hreply, hdb, ?_⟩
  rw [hstale, hlast]
  refine iff_of_false (by decide) ?_
  rintro ⟨t, ht, -⟩
  cases ht

/-- With a last success, the answer is right exactly if the threshold becomes a `timedelta` that compares
like it. -/
theorem Request.answered_iff (nan : ℤ) (hlatest : r.latest = .ok latest) (hsync : r.sync = .ok sync)
    {t : Instant} (hlast : lastSuccessValue latest sync = some t) :
    r.Answered nan latest sync ↔ ∃ limit, staleAfter r.staleAfterSeconds = .ok limit ∧
      (r.staleAt - t ≤ limit ↔ ((r.staleAt - t : ℤ) : WithTop ℤ) ≤ threshold nan r.staleAfterSeconds) := by
  have hsuccess : (∃ t', lastSuccessValue latest sync = some t' ∧
      ((r.staleAt - t' : ℤ) : WithTop ℤ) ≤ threshold nan r.staleAfterSeconds) ↔
        ((r.staleAt - t : ℤ) : WithTop ℤ) ≤ threshold nan r.staleAfterSeconds := by
    simp only [hlast, Option.some.injEq, exists_eq_left']
  unfold Request.Answered
  cases hlimit : staleAfter r.staleAfterSeconds with
  | error e =>
    have hraised : isStale r.env (lastSuccessValue latest sync) = .error e := by
      rw [hlast, isStale, Request.env, hlimit]
      rfl
    refine iff_of_false ?_ ?_
    · rintro ⟨payload, hreply, -⟩
      rw [r.reply_of_raised hlatest hsync hraised] at hreply
      cases hreply
    · rintro ⟨limit, hlimit, -⟩
      cases hlimit
  | ok limit =>
    have hcompared : isStale r.env (lastSuccessValue latest sync) =
        .ok (decide (limit < r.staleAt - t)) := by
      rw [hlast, isStale, Request.env, hlimit]
      rfl
    obtain ⟨payload, hreply, hdb, hstale⟩ := r.reply_of_stale hlatest hsync hcompared
    have hle : payload.stale = false ↔ r.staleAt - t ≤ limit := by
      rw [hstale, decide_eq_false_iff_not, not_lt]
    rw [hsuccess]
    constructor
    · rintro ⟨payload', hreply', -, hiff⟩
      obtain rfl : payload' = payload := HealthReply.payload.inj (hreply'.symm.trans hreply)
      exact ⟨limit, rfl, hle.symm.trans hiff⟩
    · rintro ⟨limit', hlimit', hiff⟩
      cases hlimit'
      exact ⟨payload, hreply, hdb, hle.trans hiff⟩

end Answered

/-- `/health` blames the database only for its failures, exactly if the threshold is one that a `timedelta`
holds wherever the age of a last success is compared with it. -/
theorem blamesOnlyDatabase_iff (nan : ℤ) (r : Request) :
    BlamesOnlyDatabase nan r ↔ r.Holdable nan := by
  constructor
  · intro h latest sync t hlatest hsync hlast
    have hanswered := h.answered latest sync hlatest hsync
    exact (staleAfter_meets nan (r.staleAt - t) r.staleAfterSeconds).mp
      ((r.answered_iff nan hlatest hsync hlast).mp hanswered)
  · intro h
    have hanswered : ∀ latest sync, r.latest = .ok latest → r.sync = .ok sync →
        r.Answered nan latest sync := by
      intro latest sync hlatest hsync
      cases hlast : lastSuccessValue latest sync with
      | none => exact r.answered_of_none nan hlatest hsync hlast
      | some t =>
        have hmeets := staleAfter_meets nan (r.staleAt - t) r.staleAfterSeconds
        exact (r.answered_iff nan hlatest hsync hlast).mpr
          (hmeets.mpr (h latest sync t hlatest hsync hlast))
    -- a 503 with both queries answered would contradict the first part
    refine ⟨hanswered, fun hstatus => ?_⟩
    cases hlatest : r.latest with
    | error e => exact .inl ⟨e, rfl⟩
    | ok latest =>
      cases hsync : r.sync with
      | error e => exact .inr ⟨e, rfl⟩
      | ok sync =>
        obtain ⟨payload, hreply, -⟩ := hanswered latest sync hlatest hsync
        rw [hreply] at hstatus
        cases hstatus

/-- A request after a success, with an infinite threshold. -/
def infiniteRequest : Request where
  version := lit "1"
  staleAfterSeconds := some (lit "inf")
  staleAt := 0
  now := 0
  latest := .ok none
  sync := .ok (some ⟨some 0, some 0, some 0, some (lit "success"), none, 0⟩)
  progress := .reset none
  version_encodable := by decide
  latest_check := fun _ h => by cases h
  sync_check := fun _ h => by cases h; decide
  counted := ⟨by decide, by decide, fun _ h => by cases h⟩

/-- The success is no older than the threshold, and the answer is that the database is unavailable. -/
theorem infinite_blamed : ¬ BlamesOnlyDatabase 7200000000 infiniteRequest := by
  intro h
  have hraised : isStale infiniteRequest.env (some 0) =
      .error ⟨lit "OverflowError", lit "cannot convert float infinity to integer"⟩ := rfl
  obtain ⟨payload, hpayload, -⟩ := h.answered none _ rfl rfl
  have hreply := infiniteRequest.reply_of_raised rfl rfl hraised
  rw [hreply] at hpayload
  cases hpayload

end Ghpulse.Health
