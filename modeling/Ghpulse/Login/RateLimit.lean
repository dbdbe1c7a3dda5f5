import Ghpulse.Library.SlidingWindow
import Ghpulse.Session.Agreement

/-!
# Login

`login_post` and its limit on failed logins. The list of an address is pruned when an attempt is checked
and again, with a later clock, when its failure is recorded. `Failures.Tracks` relates the lists to every
failure there ever was: pruning forgets nothing that still counts, so an attempt is answered as if the
lists had never been pruned.

Reference: `backend/login.py`.
-/

open Python Ghpulse.Session

namespace Ghpulse.Login

variable {ν : Type}

/-! ## Passwords

A user without a password is verified against a dummy, so that the time of an answer does not tell whether
the account exists. Nobody signs in with the dummy, even where it matches.
-/

/-- `WEB_PASSWORD_HASH_KEY`. -/
def webPasswordHashKey : Str := lit "web_password_hash"

/-- `WEB_PASSWORD_SALT_KEY`. -/
def webPasswordSaltKey : Str := lit "web_password_salt"

/-- What the process computes with: HMAC-SHA256, `auth.pbkdf2` of a password and a salt, and whether a
float counts as true. -/
structure Crypto (ν : Type) where
  digest : Digest
  pbkdf2 : Str → Json ν → Except Error Str
  floatTruthy : ν → Bool

/-- Whether a decoded value counts as true. -/
def truthy (crypto : Crypto ν) : Json ν → Bool
  | .null => false
  | .bool b => b
  | .int z => decide (z ≠ 0)
  | .num x => crypto.floatTruthy x
  | .str s => decide (s ≠ [])
  | .list items => !items.isEmpty
  | .dict fields => !fields.isEmpty

/-- `config.get(key)`, if it counts as true. -/
def truthyField (crypto : Crypto ν) (fields : List (Str × Json ν)) (key : Str) : Option (Json ν) :=
  (fields.lookup key).filter (truthy crypto)

/-- `has_web_password`; only an object has a `get`. -/
def hasWebPassword (crypto : Crypto ν) : Json ν → Except Error Bool
  | .dict fields =>
    .ok ((truthyField crypto fields webPasswordHashKey).isSome &&
      (truthyField crypto fields webPasswordSaltKey).isSome)
  | _ => .error .attributeError

/-- `verify_web_password`. -/
def verifyWebPassword (crypto : Crypto ν) (config : Json ν) (password : Str) : Except Error Bool :=
  match config with
  | .dict fields =>
    match truthyField crypto fields webPasswordHashKey, truthyField crypto fields webPasswordSaltKey with
    | some storedHash, some storedSalt => do
      let candidate ← crypto.pbkdf2 password storedSalt
      -- `compare_digest` takes two texts or two byte strings
      match storedHash with
      | .str text => compareDigest candidate text
      | _ => .error .typeError
    | _, _ => .ok false
  | _ => .error .attributeError

/-- `_DUMMY_PASSWORD_CONFIG`. -/
def dummyPasswordConfig : Json ν :=
  .dict [(webPasswordHashKey, .str (List.replicate 64 (cp '0'))),
    (webPasswordSaltKey, .str (List.replicate 32 (cp '0')))]

/-! ## Attempts

An attempt has three moments: when the limit is checked, when the password is verified, and when a failure
is recorded. The limit is about the first and the last, and is only as good as the order between them;
what it protects is the one in the middle.
-/

/-- One `POST /login`: where it comes from, its form, when it reads the clock, when its password is
verified, and what the database answers it. -/
structure Attempt (ν : Type) where
  ip : Str
  userId : Str
  password : Str
  checkAt : ℚ
  verifyAt : ℚ
  recordAt : ℚ
  loadUserConfig : ℤ → Except Error (Option (Json ν))
  ensureUserSessionSecret : ℤ → Except Error (Option Str)
  nonce : UrlSafe
  tokenAt : ℚ

/-- An answer; a redirect carries the session cookie. -/
structure Response where
  status : ℕ
  body : Str
  location : Option Str
  cookie : Option Str
  deriving DecidableEq

/-- The answer to an attempt over the limit. -/
def tooMany : Response := ⟨429, lit "Too many login attempts. Try again later.", none, none⟩

/-- The answer to a failed attempt. -/
def invalidCredentials : Response := ⟨401, lit "Invalid credentials", none, none⟩

/-- The answer to a successful attempt. -/
def signedIn (token : Str) : Response := ⟨303, [], some (lit "/"), some token⟩

section Authenticate

variable (crypto : Crypto ν) (a : Attempt ν)

/-- `uid`. -/
def Attempt.uid : ℤ := (int (strip a.userId)).getD 0

/-- `config`, if it has a password. -/
def Attempt.passwordConfig : Except Error (Option (Json ν)) := do
  let config ← if 0 < a.uid then a.loadUserConfig a.uid else .ok none
  match config.filter (truthy crypto) with
  | none => return none
  | some config =>
    let has ← hasWebPassword crypto config
    return if has then some config else none

/-- `valid_password`: an account without a password is verified against the dummy. -/
def Attempt.validPassword : Except Error Bool := do
  let config ← a.passwordConfig crypto
  verifyWebPassword crypto (config.getD dummyPasswordConfig) a.password

/-- `login_post` after the check of the limit: nothing is returned where a failure is recorded. -/
def authenticate : Except Error (Option Str) := do
  let config ← a.passwordConfig crypto
  let valid ← a.validPassword crypto
  -- the password was verified in any case, so that both failures take the same time
  if config.isNone || !valid then return none
  else
    let secret ← a.ensureUserSessionSecret a.uid
    match secret with
    | none | some [] => return none
    | some secret =>
      let token ← makeSessionToken crypto.digest a.tokenAt a.nonce a.uid secret
      return some token

end Authenticate

/-! ## The limit

The lists of failures are the whole state. An address that is not in the dictionary has the empty list,
which is what the code makes of it.
-/

/-- `_LOGIN_FAILURES`. -/
abbrev Failures := Str → List ℚ

/-- `_LOGIN_MAX_FAILURES`. -/
def loginMaxFailures : ℕ := 5

/-- `_LOGIN_WINDOW_SECONDS`. -/
def loginWindowSeconds : ℚ := 300

/-- The failures of an address that are in the window. The difference of two clock readings is exact, as
neither is more than twice the other. -/
def attempts (ip : Str) (now : ℚ) (failures : Failures) : List ℚ :=
  (failures ip).filter fun t => decide (now - t < loginWindowSeconds)

/-- `_check_login_rate_limit`. -/
def checkLoginRateLimit (ip : Str) (now : ℚ) (failures : Failures) : Bool × Failures :=
  (decide (loginMaxFailures ≤ (attempts ip now failures).length),
    Function.update failures ip (attempts ip now failures))

/-- `_record_login_failure`. -/
def recordLoginFailure (ip : Str) (now : ℚ) (failures : Failures) : Failures :=
  Function.update failures ip (attempts ip now failures ++ [now])

/-- `login_post`. -/
def loginPost (crypto : Crypto ν) (a : Attempt ν) (failures : Failures) :
    Except Error Response × Failures :=
  let (limited, failures) := checkLoginRateLimit a.ip a.checkAt failures
  if limited then (.ok tooMany, failures)
  else
    match authenticate crypto a with
    | .error e => (.error e, failures)
    | .ok none => (.ok invalidCredentials, recordLoginFailure a.ip a.recordAt failures)
    | .ok (some token) => (.ok (signedIn token), failures)

/-! ## Histories

Attempts are handled one after the other: `login_post` awaits nothing, so the event loop does not start
another one between its check and its record.
-/

/-- The lists after some attempts, one at a time, in a fresh process. -/
def failuresAfter (crypto : Crypto ν) (history : List (Attempt ν)) : Failures :=
  history.foldl (fun failures a => (loginPost crypto a failures).2) fun _ => []

/-- What an attempt is answered after others. -/
def answer (crypto : Crypto ν) (before : List (Attempt ν)) (a : Attempt ν) : Except Error Response :=
  (loginPost crypto a (failuresAfter crypto before)).1

/-- The attempts of a history with their answers, after those before it. -/
def logFrom (crypto : Crypto ν) (before : List (Attempt ν)) :
    List (Attempt ν) → List (Attempt ν × Except Error Response)
  | [] => []
  | a :: rest => (a, answer crypto before a) :: logFrom crypto (before ++ [a]) rest

/-- The attempts of a history with their answers. -/
def log (crypto : Crypto ν) (history : List (Attempt ν)) : List (Attempt ν × Except Error Response) :=
  logFrom crypto [] history

/-- Whether an answer has a status. -/
def hasStatus (status : ℕ) : Except Error Response → Bool
  | .ok response => decide (response.status = status)
  | .error _ => false

/-- The attempts of a history that recorded a failure. -/
def failed (crypto : Crypto ν) (history : List (Attempt ν)) : List (Attempt ν) :=
  ((log crypto history).filter fun entry => hasStatus 401 entry.2).map Prod.fst

/-- The attempts of a history whose password was verified and did not match. -/
def mismatched (crypto : Crypto ν) (history : List (Attempt ν)) : List (Attempt ν) :=
  ((log crypto history).filter fun entry =>
    !hasStatus 429 entry.2 && decide (entry.1.validPassword crypto = .ok false)).map Prod.fst

/-- The attempts of an address that recorded a failure. -/
def failedBy (crypto : Crypto ν) (ip : Str) (history : List (Attempt ν)) : List (Attempt ν) :=
  (failed crypto history).filter fun a => decide (a.ip = ip)

/-- When the passwords of an address did not match. -/
def mismatchTimes (crypto : Crypto ν) (ip : Str) (history : List (Attempt ν)) : List ℚ :=
  ((mismatched crypto history).filter fun a => decide (a.ip = ip)).map Attempt.verifyAt

/-- When the failures of an address were recorded. -/
def failureTimes (crypto : Crypto ν) (ip : Str) (history : List (Attempt ν)) : List ℚ :=
  (failedBy crypto ip history).map Attempt.recordAt

/-- The attempts are handled one at a time, with a clock that does not go back. -/
structure Timely (history : List (Attempt ν)) : Prop where
  within : ∀ a ∈ history, a.checkAt ≤ a.verifyAt ∧ a.verifyAt ≤ a.recordAt
  between : history.Pairwise fun a b => a.recordAt ≤ b.checkAt

section Histories

variable {crypto : Crypto ν} {history : List (Attempt ν)} {a : Attempt ν}

/-- Some of the attempts of a timely history are one. -/
theorem Timely.sublist {history' : List (Attempt ν)} (h : Timely history)
    (hsub : List.Sublist history' history) : Timely history' :=
  ⟨fun a ha => h.within a (hsub.subset ha), h.between.sublist hsub⟩

/-- The failures after one more attempt are those that it leaves. -/
theorem failuresAfter_concat (crypto : Crypto ν) (history : List (Attempt ν)) (a : Attempt ν) :
    failuresAfter crypto (history ++ [a]) = (loginPost crypto a (failuresAfter crypto history)).2 := by
  rw [failuresAfter, List.foldl_append]
  rfl

/-- One more attempt appends its answer to the log. -/
theorem logFrom_concat (before history : List (Attempt ν)) (a : Attempt ν) :
    logFrom crypto before (history ++ [a]) =
      logFrom crypto before history ++ [(a, answer crypto (before ++ history) a)] := by
  induction history generalizing before with
  | nil =>
    rw [List.append_nil]
    rfl
  | cons b rest ih =>
    rw [List.cons_append, logFrom, ih, List.append_assoc]
    rfl

/-- Likewise from the start. -/
theorem log_concat (crypto : Crypto ν) (history : List (Attempt ν)) (a : Attempt ν) :
    log crypto (history ++ [a]) = log crypto history ++ [(a, answer crypto history a)] :=
  logFrom_concat [] history a

/-- Every attempt is answered. -/
theorem map_fst_log (crypto : Crypto ν) (history : List (Attempt ν)) :
    (log crypto history).map Prod.fst = history := by
  induction history using List.reverseRecOn with
  | nil => rfl
  | append_singleton history a ih => rw [log_concat, List.map_append, ih, List.map_singleton]

/-- Every answer is one after the attempts before it. -/
theorem exists_of_mem_log {entry : Attempt ν × Except Error Response}
    (h : entry ∈ log crypto history) : ∃ before, entry.2 = answer crypto before entry.1 := by
  induction history using List.reverseRecOn with
  | nil => cases h
  | append_singleton history a ih =>
    rw [log_concat] at h
    rcases List.mem_append.mp h with hin | hlast
    · exact ih hin
    · obtain rfl := List.mem_singleton.mp hlast
      exact ⟨history, rfl⟩

/-- The failed attempts are some of the history. -/
theorem failed_sublist (crypto : Crypto ν) (history : List (Attempt ν)) :
    List.Sublist (failed crypto history) history := by
  have hsub : List.Sublist (failed crypto history) ((log crypto history).map Prod.fst) :=
    List.filter_sublist.map Prod.fst
  rwa [map_fst_log] at hsub

/-! ## What an attempt does

The two halves of one step: what it is answered, and what it leaves in the lists. The proofs about
histories use these and do not unfold `loginPost` again.
-/

/-- What an attempt below the limit is answered. -/
def verdict (crypto : Crypto ν) (a : Attempt ν) : Except Error Response :=
  match authenticate crypto a with
  | .error e => .error e
  | .ok none => .ok invalidCredentials
  | .ok (some token) => .ok (signedIn token)

/-- Only the limit answers 429. -/
theorem hasStatus_verdict (crypto : Crypto ν) (a : Attempt ν) :
    hasStatus 429 (verdict crypto a) = false := by
  unfold verdict
  split <;> rfl

/-- An attempt is answered 429 with too many recent failures, and else by its own merits. -/
theorem loginPost_fst (crypto : Crypto ν) (a : Attempt ν) (failures : Failures) :
    (loginPost crypto a failures).1 =
      if loginMaxFailures ≤
          (SlidingWindow.recent loginWindowSeconds a.checkAt (failures a.ip)).length then
        .ok tooMany
      else verdict crypto a := by
  have hrecent : attempts a.ip a.checkAt failures =
      SlidingWindow.recent loginWindowSeconds a.checkAt (failures a.ip) := rfl
  unfold loginPost checkLoginRateLimit verdict
  simp only [hrecent, decide_eq_true_eq]
  split_ifs
  · rfl
  · split <;> rfl

/-- The list of an address that made no attempt stays as it is; that of the attempt is pruned, and gets
the failure if there is one. -/
theorem loginPost_snd (crypto : Crypto ν) (a : Attempt ν) (failures : Failures) (ip : Str) :
    (loginPost crypto a failures).2 ip =
      if ip = a.ip then
        if hasStatus 401 (loginPost crypto a failures).1 then
          SlidingWindow.recent loginWindowSeconds a.recordAt
            (SlidingWindow.recent loginWindowSeconds a.checkAt (failures ip)) ++ [a.recordAt]
        else SlidingWindow.recent loginWindowSeconds a.checkAt (failures ip)
      else failures ip := by
  have hrecent (ip : Str) (now : ℚ) (failures : Failures) : attempts ip now failures =
      SlidingWindow.recent loginWindowSeconds now (failures ip) := rfl
  have hlimited : hasStatus 401 (.ok tooMany) = false := rfl
  have hinvalid : hasStatus 401 (.ok invalidCredentials) = true := rfl
  have hsigned (token : Str) : hasStatus 401 (.ok (signedIn token)) = false := rfl
  have hraised (e : Error) : hasStatus 401 (.error e) = false := rfl
  unfold loginPost checkLoginRateLimit recordLoginFailure
  by_cases hip : ip = a.ip
  · subst hip
    rw [if_pos rfl]
    dsimp only
    split_ifs with hlimit h401 h401
    · rw [hlimited] at h401
      cases h401
    · exact Function.update_self _ _ _
    · revert h401
      rcases authenticate crypto a with e | _ | token
      · intro h
        rw [hraised] at h
        cases h
      · intro _
        simp only [hrecent, Function.update_self]
      · intro h
        rw [hsigned] at h
        cases h
    · revert h401
      rcases authenticate crypto a with e | _ | token
      · intro _
        exact Function.update_self _ _ _
      · intro h
        exact absurd hinvalid h
      · intro _
        exact Function.update_self _ _ _
  · rw [if_neg hip]
    dsimp only
    split_ifs
    · exact Function.update_of_ne hip _ _
    · rcases authenticate crypto a with e | _ | token
      · exact Function.update_of_ne hip _ _
      · exact (Function.update_of_ne hip _ _).trans (Function.update_of_ne hip _ _)
      · exact Function.update_of_ne hip _ _

/-! ## What still counts

The induction is on the history from its end. A list is pruned at the clock readings of the attempts of
its own address, and each of them is before the moment at which it is looked at.
-/

/-- One more attempt of an address counts when it is answered 401. -/
theorem failedBy_concat (crypto : Crypto ν) (ip : Str) (history : List (Attempt ν)) (a : Attempt ν) :
    failedBy crypto ip (history ++ [a]) = failedBy crypto ip history ++
      if ip = a.ip ∧ hasStatus 401 (answer crypto history a) = true then [a] else [] := by
  unfold failedBy failed
  rw [log_concat, List.filter_append, List.map_append, List.filter_append]
  congr 1
  by_cases hstatus : hasStatus 401 (answer crypto history a) = true
  · by_cases hip : ip = a.ip
    · simp [hstatus, hip]
    · simp [hip, Ne.symm hip]
  · simp [hstatus]

/-- A clock that does not go back does not go back from one attempt to the last. -/
theorem Timely.recordAt_le (h : Timely (history ++ [a])) : ∀ b ∈ history, b.recordAt ≤ a.checkAt :=
  fun b hb => (List.pairwise_append.mp h.between).2.2 b hb a (List.mem_singleton_self a)

/-- A timely history is one without its last attempt. -/
theorem Timely.init (h : Timely (history ++ [a])) : Timely history :=
  h.sublist (List.sublist_append_left history [a])

/-- An attempt is recorded after it is checked. -/
theorem Timely.checkAt_le (h : Timely history) (ha : a ∈ history) : a.checkAt ≤ a.recordAt :=
  (h.within a ha).1.trans (h.within a ha).2

/-- Pruning has forgotten no failure that still counts. -/
theorem recent_failuresAfter (h : Timely history) (ip : Str) {now : ℚ}
    (hnow : ∀ a ∈ history, a.recordAt ≤ now) :
    SlidingWindow.recent loginWindowSeconds now (failuresAfter crypto history ip) =
      SlidingWindow.recent loginWindowSeconds now (failureTimes crypto ip history) := by
  induction history using List.reverseRecOn with
  | nil => rfl
  | append_singleton history a ih =>
    have hlast : a ∈ history ++ [a] := List.mem_append_right _ (List.mem_singleton_self a)
    -- both clock readings of the last attempt are before the moment in question
    have hrecord : a.recordAt ≤ now := hnow a hlast
    have hcheck : a.checkAt ≤ now := (h.checkAt_le hlast).trans hrecord
    have ih := ih h.init fun b hb => hnow b (List.mem_append_left _ hb)
    rw [failureTimes, failedBy_concat, List.map_append, SlidingWindow.recent_append, ← failureTimes,
      ← ih, failuresAfter_concat, loginPost_snd, ← answer]
    by_cases hip : ip = a.ip
    · rw [if_pos hip]
      by_cases h401 : hasStatus 401 (answer crypto history a) = true
      · rw [if_pos h401, if_pos ⟨hip, h401⟩, SlidingWindow.recent_append,
          SlidingWindow.recent_recent hrecord, SlidingWindow.recent_recent hcheck]
        rfl
      · rw [if_neg h401, if_neg fun both => h401 both.2, SlidingWindow.recent_recent hcheck]
        exact (List.append_nil _).symm
    · rw [if_neg hip, if_neg fun both => hip both.1]
      exact (List.append_nil _).symm

/-- An attempt is answered as if the lists had never been pruned. -/
theorem answer_eq (h : Timely (history ++ [a])) :
    answer crypto history a =
      if loginMaxFailures ≤ (SlidingWindow.recent loginWindowSeconds a.checkAt
          (failureTimes crypto a.ip history)).length then .ok tooMany
      else verdict crypto a := by
  rw [answer, loginPost_fst, recent_failuresAfter h.init a.ip h.recordAt_le]

/-- An attempt is rejected exactly when enough failures of its address still count. -/
theorem hasStatus_answer (h : Timely (history ++ [a])) :
    hasStatus 429 (answer crypto history a) = true ↔
      loginMaxFailures ≤ (SlidingWindow.recent loginWindowSeconds a.checkAt
        (failureTimes crypto a.ip history)).length := by
  rw [answer_eq h]
  split_ifs with hlimit
  · exact ⟨fun _ => hlimit, fun _ => rfl⟩
  · rw [hasStatus_verdict]
    exact ⟨fun hfalse => (Bool.false_ne_true hfalse).elim, fun hle => (hlimit hle).elim⟩

/-! ## Windows

A failure of an address was admitted while fewer than the limit counted, so its failures form a lawful
log, and the bound on every window is that of the library.
-/

/-- A failure is recorded only while fewer than the limit count. -/
theorem lawful_failedBy (crypto : Crypto ν) (h : Timely history) (ip : Str) :
    Runs.Lawful (SlidingWindow.Admits loginWindowSeconds loginMaxFailures Attempt.checkAt
      Attempt.recordAt) (failedBy crypto ip history) := by
  induction history using List.reverseRecOn with
  | nil => exact Runs.lawful_nil
  | append_singleton history a ih =>
    rw [failedBy_concat]
    split_ifs with hfails
    · obtain ⟨rfl, h401⟩ := hfails
      refine Runs.lawful_concat.mpr ⟨ih h.init, ?_, ?_⟩
      · intro b hb
        exact h.recordAt_le b ((failed_sublist crypto history).subset (List.mem_of_mem_filter hb))
      -- over the limit it would have been answered 429, not 401
      · by_contra hlimit
        have hlimit : loginMaxFailures ≤ (SlidingWindow.recent loginWindowSeconds a.checkAt
            (failureTimes crypto a.ip history)).length := Nat.le_of_not_lt hlimit
        rw [answer_eq h, if_pos hlimit] at h401
        cases h401
    · rw [List.append_nil]
      exact ih h.init

/-- Less than `loginWindowSeconds` long. -/
def Short (window : ℚ → Bool) : Prop :=
  ∀ s t, window s = true → window t = true → t - s < loginWindowSeconds

/-- The failures of an address are some of the history. -/
theorem failedBy_sublist (crypto : Crypto ν) (ip : Str) (history : List (Attempt ν)) :
    List.Sublist (failedBy crypto ip history) history :=
  List.filter_sublist.trans (failed_sublist crypto history)

/-- In a short window an address has at most `loginMaxFailures` failures. -/
theorem length_failureTimes_le (h : Timely history) (ip : Str) {window : ℚ → Bool}
    (hwindow : Short window) :
    ((failureTimes crypto ip history).filter window).length ≤ loginMaxFailures := by
  have hle := SlidingWindow.length_filter_le (lawful_failedBy crypto h ip)
    (fun a ha => h.checkAt_le ((failedBy_sublist crypto ip history).subset ha)) (fun a _ => le_rfl)
    hwindow
  rwa [failureTimes, List.filter_map, List.length_map]

/-- Whoever fails the verification of the password fails. -/
theorem answer_of_mismatch {before : List (Attempt ν)} (h : a.validPassword crypto = .ok false)
    (hbelow : hasStatus 429 (answer crypto before a) = false) :
    hasStatus 401 (answer crypto before a) = true := by
  have hauth : authenticate crypto a = .ok none := by
    unfold authenticate
    cases hconfig : a.passwordConfig crypto with
    | error e =>
      unfold Attempt.validPassword at h
      rw [hconfig] at h
      cases h
    | ok config =>
      rw [h]
      change (if config.isNone || !false then Except.ok none else _) = _
      rw [Bool.not_false, Bool.or_true, if_pos rfl]
  have hverdict : verdict crypto a = .ok invalidCredentials := by rw [verdict, hauth]
  rw [answer, loginPost_fst] at hbelow ⊢
  split_ifs at hbelow ⊢
  · cases hbelow
  · rw [hverdict]
    rfl

/-- The attempts with a wrong password are some of the failed ones. -/
theorem mismatched_sublist (crypto : Crypto ν) (history : List (Attempt ν)) :
    List.Sublist (mismatched crypto history) (failed crypto history) := by
  have hfilter : ((log crypto history).filter fun entry =>
      !hasStatus 429 entry.2 && decide (entry.1.validPassword crypto = .ok false)) =
      ((log crypto history).filter fun entry => hasStatus 401 entry.2).filter fun entry =>
        !hasStatus 429 entry.2 && decide (entry.1.validPassword crypto = .ok false) := by
    rw [List.filter_filter]
    apply List.filter_congr
    intro entry hentry
    obtain ⟨before, hanswer⟩ := exists_of_mem_log hentry
    rw [eq_comm, Bool.and_eq_left_iff_imp]
    intro hp
    rw [Bool.and_eq_true, Bool.not_eq_true', decide_eq_true_iff, hanswer] at hp
    rw [hanswer]
    exact answer_of_mismatch hp.2 hp.1
  rw [mismatched, hfilter]
  exact List.filter_sublist.map Prod.fst

/-- So there are at most so many of them in a short window. -/
theorem length_mismatchTimes_le (h : Timely history) (ip : Str) {window : ℚ → Bool}
    (hwindow : Short window) :
    ((mismatchTimes crypto ip history).filter window).length ≤ loginMaxFailures := by
  have hmem (b : Attempt ν) (hb : b ∈ failedBy crypto ip history) : b ∈ history :=
    (failedBy_sublist crypto ip history).subset hb
  have hle := SlidingWindow.length_filter_le (lawful_failedBy crypto h ip)
    (fun b hb => (h.within b (hmem b hb)).1) (fun b hb => (h.within b (hmem b hb)).2) hwindow
  have hsub : List.Sublist ((mismatched crypto history).filter fun a => decide (a.ip = ip))
      (failedBy crypto ip history) := (mismatched_sublist crypto history).filter _
  rw [mismatchTimes, List.filter_map, List.length_map]
  exact (hsub.filter _).length_le.trans hle

/-! ## Attempts left out

The answers of an address depend only on its own failures. Attempts of other addresses, and attempts that
record no failure, can be removed from a history without any other answer changing.
-/

/-- Attempts that record no failure of an address that is kept can be left out: the others are answered
as before. -/
theorem log_filter (h : Timely history) {keep : Attempt ν × Except Error Response → Bool}
    (hkeep : ∀ entry ∈ log crypto history, ∀ other ∈ log crypto history, keep entry = true →
      other.1.ip = entry.1.ip → hasStatus 401 other.2 = true → keep other = true) :
    log crypto (((log crypto history).filter keep).map Prod.fst) = (log crypto history).filter keep := by
  induction history using List.reverseRecOn with
  | nil => rfl
  | append_singleton history a ih =>
    rw [log_concat] at hkeep ⊢
    have ih := ih h.init fun entry hentry other hother =>
      hkeep entry (List.mem_append_left _ hentry) other (List.mem_append_left _ hother)
    rw [List.filter_append, List.map_append]
    by_cases ha : keep (a, answer crypto history a) = true
    · have hkept : [(a, answer crypto history a)].filter keep = [(a, answer crypto history a)] := by
        simp [ha]
      have hsub : List.Sublist ((((log crypto history).filter keep).map Prod.fst) ++ [a])
          (history ++ [a]) := by
        have hsub := (List.filter_sublist (p := keep) (l := log crypto history)).map Prod.fst
        rw [map_fst_log] at hsub
        exact hsub.append_right [a]
      have hsame : failureTimes crypto a.ip (((log crypto history).filter keep).map Prod.fst) =
          failureTimes crypto a.ip history := by
        unfold failureTimes failedBy failed
        rw [ih, List.filter_filter, List.filter_map, List.filter_map, List.filter_filter,
          List.filter_filter]
        congr 2
        apply List.filter_congr
        intro other hother
        rw [← Bool.and_assoc, Bool.and_eq_left_iff_imp, Bool.and_eq_true]
        rintro ⟨hip, h401⟩
        exact hkeep _ (List.mem_append_right _ (List.mem_singleton_self _)) other
          (List.mem_append_left _ hother) ha (of_decide_eq_true hip) h401
      rw [hkept, List.map_singleton, log_concat, ih, answer_eq (h.sublist hsub), hsame, ← answer_eq h]
    · have hdropped : [(a, answer crypto history a)].filter keep = [] := by simp [ha]
      rw [hdropped, List.map_nil, List.append_nil, List.append_nil]
      exact ih

/-- An interval of the length of the window, closed on one side only, is short. -/
theorem short_of_halfOpen (x : ℚ) :
    Short (fun t => decide (x ≤ t ∧ t < x + 300)) ∧ Short fun t => decide (x < t ∧ t ≤ x + 300) := by
  have hwidth : loginWindowSeconds = 300 := rfl
  constructor
  · intro s t hs ht
    have hs := of_decide_eq_true hs
    have ht := of_decide_eq_true ht
    linarith
  · intro s t hs ht
    have hs := of_decide_eq_true hs
    have ht := of_decide_eq_true ht
    linarith

/-- The logins of a history are limited. -/
structure Limited (crypto : Crypto ν) (history : List (Attempt ν)) : Prop where
  /-- An attempt is rejected exactly when at least five failures of its address are less than 300 seconds
  old. -/
  rejected : ∀ before a after, history = before ++ a :: after →
    (hasStatus 429 (answer crypto before a) = true ↔
      5 ≤ ((failureTimes crypto a.ip before).filter fun t => decide (a.checkAt - t < 300)).length)
  /-- No half-open interval of 300 seconds contains more than five failures of an address. -/
  failures : ∀ ip x,
    ((failureTimes crypto ip history).filter fun t => decide (x ≤ t ∧ t < x + 300)).length ≤ 5 ∧
      ((failureTimes crypto ip history).filter fun t => decide (x < t ∧ t ≤ x + 300)).length ≤ 5
  /-- Nor more than five verifications that fail. -/
  mismatches : ∀ ip x,
    ((mismatchTimes crypto ip history).filter fun t => decide (x ≤ t ∧ t < x + 300)).length ≤ 5 ∧
      ((mismatchTimes crypto ip history).filter fun t => decide (x < t ∧ t ≤ x + 300)).length ≤ 5
  /-- An address is answered as if there were no other. -/
  isolated : ∀ ip, log crypto (history.filter fun a => decide (a.ip = ip)) =
    (log crypto history).filter fun entry => decide (entry.1.ip = ip)
  /-- Whoever is rejected might as well not have tried. -/
  rejection : log crypto (((log crypto history).filter fun entry =>
      !hasStatus 429 entry.2).map Prod.fst) =
    (log crypto history).filter fun entry => !hasStatus 429 entry.2

/-- Logins are limited for every address on its own, whatever is attempted and whenever. -/
theorem limitsLogins (crypto : Crypto ν) (history : List (Attempt ν)) (h : Timely history) :
    Limited crypto history := by
  refine ⟨?_, ?_, ?_, ?_, ?_⟩
  · rintro before a after rfl
    have hsplit : List.Sublist (before ++ [a]) (before ++ a :: after) :=
      (List.singleton_sublist.mpr List.mem_cons_self).append_left before
    exact hasStatus_answer (h.sublist hsplit)
  · intro ip x
    exact ⟨length_failureTimes_le h ip (short_of_halfOpen x).1,
      length_failureTimes_le h ip (short_of_halfOpen x).2⟩
  · intro ip x
    exact ⟨length_mismatchTimes_le h ip (short_of_halfOpen x).1,
      length_mismatchTimes_le h ip (short_of_halfOpen x).2⟩
  · intro ip
    have hmap : history.filter (fun a => decide (a.ip = ip)) =
        ((log crypto history).filter fun entry => decide (entry.1.ip = ip)).map Prod.fst := by
      conv_lhs => rw [← map_fst_log crypto history, List.filter_map]
      rfl
    rw [hmap]
    apply log_filter h
    intro entry _ other _ hentry hip _
    exact decide_eq_true (hip.trans (of_decide_eq_true hentry))
  · apply log_filter h
    intro entry _ other _ _ _ h401
    cases hanswer : other.2 with
    | error e => rfl
    | ok response =>
      rw [hanswer] at h401
      have hstatus : response.status = 401 := of_decide_eq_true h401
      rw [hasStatus, hstatus]
      rfl

end Histories

/-- A process without users; the dummy password is not guessed. -/
def guessed : Crypto ℚ := ⟨default, fun _ _ => .ok (List.replicate 64 (cp 'a')), fun x => decide (x ≠ 0)⟩

/-- A guess that takes a second. -/
def guess (now : ℚ) : Attempt ℚ where
  ip := lit "203.0.113.9"
  userId := lit "7"
  password := lit "guess"
  checkAt := now
  verifyAt := now
  recordAt := now + 1
  loadUserConfig := fun _ => .ok none
  ensureUserSessionSecret := fun _ => .ok none
  nonce := default
  tokenAt := now

/-- Five guesses, one too many, and one after the first guess has left the window. -/
def guesses : List (Attempt ℚ) := [0, 10, 20, 30, 40, 50, 301].map guess

/-- Guesses that are limited; only the sixth is rejected. -/
theorem guesses_limited : Limited guessed guesses ∧ (log guessed guesses).map (hasStatus 429 ·.2) =
    [false, false, false, false, false, true, false] := by
  refine ⟨limitsLogins guessed guesses ⟨?_, ?_⟩, by decide +kernel⟩
  · intro a ha
    obtain ⟨now, -, rfl⟩ := List.mem_map.mp ha
    exact ⟨le_rfl, le_add_of_nonneg_right zero_le_one⟩
  · rw [guesses, List.pairwise_map]
    unfold guess
    decide +kernel

end Ghpulse.Login
