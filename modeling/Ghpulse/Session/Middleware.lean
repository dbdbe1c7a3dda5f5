import Ghpulse.Session.Agreement

/-!
# The auth gate

`auth_middleware` decides on every request from the path, the admin token, the origin and the session
cookie. `authMiddleware_failsClosed_iff` says for which requests it decides, and that whenever it
decides it is closed: it raises exactly on the texts that lie outside the domain of a library call on
the way to the decision.

`request.url.path` and `urlparse` are library code and stand as parameters. The former is rebuilt from
the Host header, so it may raise or differ from the routed path.

Reference: `backend/session.py`.
-/

open Python

namespace Ghpulse.Session

/-! ## Requests and decisions

A header that is not sent is nothing. Where the source tests for truth, an empty header counts as one that
is not sent.
-/

/-- What the gate reads from a request; a missing header or cookie is nothing. -/
structure Request where
  method : Str
  /-- The path the request is routed by. -/
  path : Str
  host : Option Str
  origin : Option Str
  referer : Option Str
  xAdminToken : Option Str
  sessionCookie : Option Str

/-- The responses of the gate. -/
inductive Response where
  /-- `JSONResponse({"ok": False, "error": error}, status_code=status)`. -/
  | json (status : ℕ) (error : Str)
  /-- `Response(body, status_code=status)`. -/
  | plain (status : ℕ) (body : Str)
  /-- `RedirectResponse(location, status_code=status)`. -/
  | redirect (status : ℕ) (location : Str)
  deriving DecidableEq

/-- `request.state.user_id` and `request.state.is_guest`. -/
structure Identity where
  userId : ℤ
  isGuest : Bool
  deriving DecidableEq

/-- What the middleware does with a request. -/
inductive Decision where
  | respond (response : Response)
  | callNext (identity : Option Identity)
  deriving DecidableEq

/-- The surroundings of the gate: sessions, users, clock, settings and library calls. -/
structure Web where
  session : Env
  users : Users
  now : ℚ
  /-- The environment variable `ADMIN_TOKEN`. -/
  adminToken : Option Str
  /-- `request.url.path`. -/
  urlPath : Request → Except Error Str
  /-- `urlparse(text).netloc`. -/
  netloc : Str → Except Error Str

/-- `{"ok": False, "error": "Unauthorized"}`, 401. -/
def unauthorized : Response := .json 401 (lit "Unauthorized")

/-- The refusal of a cross-origin mutation. -/
def crossOrigin : Response := .plain 403 (lit "Forbidden (cross-origin)")

/-- The refusal of an export to a guest. -/
def guestForbidden : Response := .json 403 (lit "Forbidden (guest)")

/-- The redirect of a page load without a session. -/
def toLogin : Response := .redirect 302 (lit "/login")

/-- The 401 and 403 responses and the redirect of the gate. -/
def ownResponses : List Response := [unauthorized, crossOrigin, guestForbidden, toLogin]

/-! ## The two gates

In the order of the source: public paths first, then the token under `/admin/`, and a session everywhere
else. The calls that can raise are made in sequence.
-/

/-- `_AUTH_PUBLIC_PATHS`. -/
def authPublicPaths : List Str := [lit "/health", lit "/login", lit "/logout", lit "/login/guest"]

/-- The methods that need no origin. -/
def safeMethods : List Str := [lit "GET", lit "HEAD", lit "OPTIONS"]

/-- `check_origin`. -/
def checkOrigin (web : Web) (r : Request) : Except Error Bool :=
  if r.method ∈ safeMethods then .ok true
  else
    let origin := r.origin.getD []
    let referer := r.referer.getD []
    let host := r.host.getD []
    -- without a `Host` header there is nothing to compare with
    if host = [] then .ok true
    else if origin ≠ [] then (web.netloc origin).map fun n => decide (n = host)
    else if referer ≠ [] then (web.netloc referer).map fun n => decide (n = host)
    else .ok false

/-- `_admin_denied`: nothing means allowed. -/
def adminDenied (web : Web) (r : Request) : Except Error (Option Response) :=
  let token := r.xAdminToken.getD []
  let expected := web.adminToken.getD []
  -- an unset `ADMIN_TOKEN` closes the admin paths
  if expected = [] then .ok (some unauthorized)
  else do
    let same ← compareDigest token expected
    if same = false then return some unauthorized
    else
      let allowed ← checkOrigin web r
      if allowed = false then return some crossOrigin else return none

/-- `_unauthenticated`. -/
def unauthenticated (path : Str) : Response :=
  if startsWith path (lit "/api/") then unauthorized else toLogin

/-- `_guest_denied`. -/
def guestDenied (path : Str) : Option Response :=
  if startsWith path (lit "/api/export") then some guestForbidden else none

/-- `resolve_session_user_id(cookie) if cookie else None`. -/
def cookieUser (web : Web) (r : Request) : Except Error (Option ℤ) :=
  let cookie := r.sessionCookie.getD []
  if cookie ≠ [] then resolveSessionUserId web.session web.users web.now cookie else .ok none

/-- `_session_denied`: the response, and the identity left in `request.state`. -/
def sessionDenied (web : Web) (path : Str) (r : Request) :
    Except Error (Option Response × Option Identity) := do
  let allowed ← checkOrigin web r
  if allowed = false then return (some crossOrigin, none)
  else
    match ← cookieUser web r with
    | none => return (some (unauthenticated path), none)
    | some u =>
      let identity : Identity := ⟨u, decide (u = guestUserId)⟩
      -- the identity is left in `request.state` also when the guest is refused
      return (if identity.isGuest then guestDenied path else none, some identity)

/-- The token gate under `/admin/`, the session gate elsewhere. -/
def denied (web : Web) (path : Str) (r : Request) :
    Except Error (Option Response × Option Identity) :=
  if startsWith path (lit "/admin/") then (adminDenied web r).map fun denied => (denied, none)
  else sessionDenied web path r

/-- `auth_middleware` once `request.url.path` is read. -/
def decideAt (web : Web) (path : Str) (r : Request) : Except Error Decision :=
  if path ∈ authPublicPaths then .ok (.callNext none)
  else (denied web path r).map fun
    | (some response, _) => .respond response
    | (none, identity) => .callNext identity

/-- `auth_middleware`. -/
def authMiddleware (web : Web) (r : Request) : Except Error Decision := do
  let path ← web.urlPath r
  decideAt web path r

/-! ## What may pass

What the gate is for, in terms of the request alone. A public path is open to everyone; every other path
needs the admin token or a session, and both need the origin check.
-/

/-- The request carries the admin token and passes the origin check. -/
structure AdminAccepted (web : Web) (r : Request) : Prop where
  configured : web.adminToken.getD [] ≠ []
  token : r.xAdminToken.getD [] = web.adminToken.getD []
  origin : checkOrigin web r = .ok true

/-- The request carries a cookie that resolves to a user who may read the path, and passes the origin
check. -/
structure SessionAccepted (web : Web) (path : Str) (r : Request) (cookie : Str) (userId : ℤ) :
    Prop where
  carried : r.sessionCookie = some cookie
  present : cookie ≠ []
  resolved : resolveSessionUserId web.session web.users web.now cookie = .ok (some userId)
  origin : checkOrigin web r = .ok true
  notExport : ¬(userId = guestUserId ∧ startsWith path (lit "/api/export") = true)

/-- A request for `path` may pass: the path is public, or it is an admin path with the admin token, or
the request has a session. -/
def MayPass (web : Web) (path : Str) (r : Request) : Prop :=
  path ∈ authPublicPaths ∨
    (startsWith path (lit "/admin/") = true ∧ AdminAccepted web r) ∨
    ∃ cookie userId, SessionAccepted web path r cookie userId

/-- The gate always decides, with one of its own responses or by passing on a request that may pass. -/
def FailsClosed (web : Web) (r : Request) : Prop :=
  ∃ decision, authMiddleware web r = .ok decision ∧
    match decision with
    | .respond response => response ∈ ownResponses
    | .callNext _ => MayPass web r.path r

/-- The gate at `path` opens: it tries the token on an admin path and the session elsewhere. -/
def GateOpens (web : Web) (path : Str) (r : Request) : Prop :=
  path ∈ authPublicPaths ∨
    (startsWith path (lit "/admin/") = true ∧ AdminAccepted web r) ∨
    (startsWith path (lit "/admin/") = false ∧ ∃ cookie userId,
      SessionAccepted web path r cookie userId)

/-- Whom the gate lets through may pass. -/
theorem GateOpens.mayPass {web : Web} {path : Str} {r : Request} (h : GateOpens web path r) :
    MayPass web path r := by
  rcases h with h | h | h
  · exact Or.inl h
  · exact Or.inr (Or.inl h)
  · exact Or.inr (Or.inr h.2)

/-! ## The domains of the library calls

`hmac.compare_digest` takes only ASCII, `str.encode` no lone surrogates, `json.loads` no integer above the
digit limit, and `urlparse` raises on some netlocs. Nothing in the middleware catches these, so each gate
returns exactly when its calls do, in the order in which they are made.
-/

/-- A computation that does not raise. -/
def Returns {α : Type} (x : Except Error α) : Prop := ∃ a, x = .ok a

/-- A value that is returned returns. -/
theorem returns_ok {α : Type} (a : α) : Returns (Except.ok a : Except Error α) := ⟨a, rfl⟩

/-- A raise does not. -/
theorem not_returns_error {α : Type} (e : Error) : ¬Returns (Except.error e : Except Error α) := by
  rintro ⟨a, h⟩
  cases h

/-- A sequence returns when both parts do. -/
theorem returns_bind {α β : Type} {x : Except Error α} {f : α → Except Error β} :
    Returns (x >>= f) ↔ ∃ a, x = .ok a ∧ Returns (f a) := by
  constructor
  · rintro ⟨b, h⟩
    obtain ⟨a, ha, hb⟩ := bind_eq_ok.mp h
    exact ⟨a, ha, b, hb⟩
  · rintro ⟨a, ha, b, hb⟩
    exact ⟨b, bind_eq_ok.mpr ⟨a, ha, hb⟩⟩

/-- A function on the result does not change whether there is one. -/
theorem returns_map {α β : Type} {x : Except Error α} {f : α → β} :
    Returns (x.map f) ↔ Returns x := by
  cases x with
  | error e => exact ⟨fun h => absurd h (not_returns_error e), fun h => absurd h (not_returns_error e)⟩
  | ok a => exact ⟨fun _ => returns_ok a, fun _ => returns_ok (f a)⟩

/-- `urlparse` accepts the header that `check_origin` parses, if it parses any. -/
def OriginReadable (web : Web) (r : Request) : Prop :=
  r.method ∈ safeMethods ∨ r.host.getD [] = [] ∨
    if r.origin.getD [] ≠ [] then Returns (web.netloc (r.origin.getD []))
    else r.referer.getD [] = [] ∨ Returns (web.netloc (r.referer.getD []))

/-- Within its term, the token can be verified: secret and nonce can be encoded and the signature is
ASCII. -/
def VerifyReadable (now : ℚ) (p : Parsed) (secret : Str) : Prop :=
  InTerm now p.issuedAt → encodable secret = true ∧ encodable p.nonce = true ∧ isAscii p.sig = true

/-- The cookie can be resolved: it does not parse, or the row of its user can be decoded and is no row,
null or an object, and the token can be verified under a secret that is not blank. -/
def CookieReadable (web : Web) (cookie : Str) : Prop :=
  ∀ p, parseSessionToken cookie = some p →
    if p.userId = guestUserId then VerifyReadable web.now p web.session.guestSecret.text
    else ∀ config, web.users p.userId = some (some config) →
      decodes config = true ∧ (config = .null ∨ ∃ fields, config = .dict fields ∧
        (pySecret web.session.py fields = [] ∨
          VerifyReadable web.now p (pySecret web.session.py fields)))

/-- No library call on the way to the decision leaves its domain. -/
def Readable (web : Web) (path : Str) (r : Request) : Prop :=
  path ∈ authPublicPaths ∨
    if startsWith path (lit "/admin/") then
      web.adminToken.getD [] = [] ∨
        (isAscii (r.xAdminToken.getD []) = true ∧ isAscii (web.adminToken.getD []) = true ∧
          (r.xAdminToken.getD [] = web.adminToken.getD [] → OriginReadable web r))
    else
      OriginReadable web r ∧ (checkOrigin web r = .ok true →
        r.sessionCookie.getD [] ≠ [] → CookieReadable web (r.sessionCookie.getD []))

/-- `check_origin` returns exactly when the origin can be read. -/
theorem checkOrigin_returns {web : Web} {r : Request} :
    Returns (checkOrigin web r) ↔ OriginReadable web r := by
  unfold checkOrigin OriginReadable
  dsimp only
  by_cases hmethod : r.method ∈ safeMethods
  · rw [if_pos hmethod]
    exact iff_of_true (returns_ok true) (Or.inl hmethod)
  rw [if_neg hmethod, or_iff_right hmethod]
  by_cases hhost : r.host.getD [] = []
  · rw [if_pos hhost]
    exact iff_of_true (returns_ok true) (Or.inl hhost)
  rw [if_neg hhost, or_iff_right hhost]
  by_cases horigin : r.origin.getD [] ≠ []
  · rw [if_pos horigin, if_pos horigin, returns_map]
  rw [if_neg horigin, if_neg horigin]
  by_cases hreferer : r.referer.getD [] ≠ []
  · rw [if_pos hreferer, returns_map, or_iff_right hreferer]
  · rw [if_neg hreferer]
    exact iff_of_true (returns_ok false) (Or.inl (not_not.mp hreferer))

/-- `compare_digest` returns exactly for two ASCII texts. -/
theorem compareDigest_returns {a b : Str} :
    Returns (compareDigest a b) ↔ isAscii a = true ∧ isAscii b = true := by
  constructor
  · rintro ⟨same, h⟩
    exact (compareDigest_eq_ok.mp h).1
  · intro h
    exact ⟨_, compareDigest_eq_ok.mpr ⟨h, rfl⟩⟩

/-- The payload rebuilt from a parsed token can be encoded exactly when its nonce can. -/
theorem exists_payloadOf_parsed {token : Str} {p : Parsed} (h : parseSessionToken token = some p) :
    ∃ payload, payloadOf p.userId p.issuedAt p.nonce = .ok payload ∧
      (encodable payload = true ↔ encodable p.nonce = true) := by
  obtain ⟨-, -, hu, ht⟩ := of_parseSessionToken h
  refine ⟨_, payloadOf_eq_ok.mpr ⟨_, _, hu, ht, rfl⟩, ?_⟩
  rw [encodable_dotted, encodable_dotted]
  simp [encodable_intText]

/-- A parsed token is verified without a raise exactly when it can be read. -/
theorem verifySessionToken_returns {d : Digest} {now : ℚ} {token secret : Str} {p : Parsed}
    (h : parseSessionToken token = some p) :
    Returns (verifySessionToken d now token secret) ↔ VerifyReadable now p secret := by
  rw [verifySessionToken_of_parse h, VerifyReadable]
  by_cases hterm : InTerm now p.issuedAt
  · obtain ⟨payload, hpayload, henc⟩ := exists_payloadOf_parsed h
    have hascii := d.isAscii_hexdigest secret payload
    rw [if_pos hterm, hpayload, forall_prop_of_true hterm, ← henc]
    constructor
    -- from the last call back to the first: each has returned
    · rintro ⟨u, hu⟩
      obtain ⟨_, hp, hu⟩ := bind_eq_ok.mp hu
      obtain rfl := Except.ok.inj hp
      obtain ⟨sig, hsig, hu⟩ := bind_eq_ok.mp hu
      obtain ⟨same, hsame, -⟩ := bind_eq_ok.mp hu
      obtain ⟨⟨hs, hp⟩, -⟩ := hmacSha256_eq_ok.mp hsig
      exact ⟨hs, hp, (compareDigest_eq_ok.mp hsame).1.2⟩
    · rintro ⟨hs, hp, hsig⟩
      exact ⟨_, bind_eq_ok.mpr ⟨_, rfl, bind_eq_ok.mpr ⟨_, hmacSha256_eq_ok.mpr ⟨⟨hs, hp⟩, rfl⟩,
        bind_eq_ok.mpr ⟨_, compareDigest_eq_ok.mpr ⟨⟨hascii, hsig⟩, rfl⟩, rfl⟩⟩⟩⟩
  · rw [if_neg hterm]
    exact iff_of_true (returns_ok none) fun hin => absurd hin hterm

/-- Reading a user's secret does not raise exactly when the row decodes and holds null or an object. -/
theorem checkedSecret_returns {py : PyRepr} {users : Users} {userId : ℤ} :
    Returns (checkedSecret py users userId) ↔
      ∀ config, users userId = some (some config) →
        decodes config = true ∧ (config = .null ∨ ∃ fields, config = .dict fields) := by
  cases hrow : users userId with
  | none =>
    refine iff_of_true ⟨none, ?_⟩ fun config h => by cases h
    simp only [checkedSecret, loadUserConfig, hrow]
    rfl
  | some stored =>
    cases stored with
    | none =>
      refine iff_of_true ⟨none, ?_⟩ fun config h => by cases h
      simp only [checkedSecret, loadUserConfig, hrow]
      rfl
    | some config =>
      simp only [Option.some.injEq, forall_eq', checkedSecret, loadUserConfig, hrow]
      by_cases hd : decodes config = true
      · rw [if_pos hd]
        cases config with
        | null => exact iff_of_true ⟨none, rfl⟩ ⟨hd, Or.inl rfl⟩
        | dict fields =>
          refine iff_of_true (returns_bind.mpr ⟨_, rfl, ?_⟩) ⟨hd, Or.inr ⟨fields, rfl⟩⟩
          exact returns_bind.mpr ⟨_, configSecret_dict py fields, returns_ok _⟩
        | _ =>
          refine iff_of_false (not_returns_error .attributeError) ?_
          rintro ⟨-, h | ⟨fields, h⟩⟩ <;> cases h
      · rw [if_neg hd]
        exact iff_of_false (not_returns_error .valueError) fun h => hd h.1

/-- A cookie is resolved without a raise exactly when it can be read. -/
theorem resolveSessionUserId_returns {web : Web} {cookie : Str} :
    Returns (resolveSessionUserId web.session web.users web.now cookie) ↔
      CookieReadable web cookie := by
  unfold resolveSessionUserId CookieReadable
  cases hparse : parseSessionToken cookie with
  | none => exact iff_of_true (returns_ok none) fun p hp => by cases hp
  | some p =>
    simp only [Option.some.injEq, forall_eq']
    by_cases hguest : p.userId = guestUserId
    · rw [if_pos hguest, if_pos hguest]
      exact verifySessionToken_returns hparse
    · rw [if_neg hguest, if_neg hguest, returns_bind]
      constructor
      -- a secret that is not blank has been compared with
      · rintro ⟨secret, hsecret, hverify⟩ config hrow
        obtain ⟨hd, hshape⟩ := checkedSecret_returns.mp ⟨secret, hsecret⟩ config hrow
        refine ⟨hd, hshape.imp_right ?_⟩
        rintro ⟨fields, rfl⟩
        refine ⟨fields, rfl, or_iff_not_imp_left.mpr fun hne => ?_⟩
        have hsome := (checkedSecret_eq_some hrow).mpr ⟨hd, hne, rfl⟩
        obtain rfl := Except.ok.inj (hsecret.symm.trans hsome)
        exact (verifySessionToken_returns hparse).mp hverify
      · intro h
        obtain ⟨secret, hsecret⟩ := checkedSecret_returns.mpr fun config hrow =>
          ⟨(h config hrow).1, (h config hrow).2.imp_right fun ⟨fields, hf, _⟩ => ⟨fields, hf⟩⟩
        refine ⟨secret, hsecret, ?_⟩
        cases secret with
        | none => exact returns_ok none
        | some secret =>
          obtain ⟨fields, -, hload, -⟩ := checkedSecret_eq_ok.mp hsecret
          have hrow := of_loadUserConfig hload
          obtain ⟨-, hne, rfl⟩ := (checkedSecret_eq_some hrow).mp hsecret
          obtain ⟨-, hnull | ⟨_, hf, hverify⟩⟩ := h _ hrow
          · cases hnull
          · cases hf
            exact (verifySessionToken_returns hparse).mpr (hverify.resolve_left hne)

/-- The admin gate answers exactly when its tokens and then the origin can be read. -/
theorem adminDenied_returns {web : Web} {r : Request} :
    Returns (adminDenied web r) ↔
      web.adminToken.getD [] = [] ∨
        (isAscii (r.xAdminToken.getD []) = true ∧ isAscii (web.adminToken.getD []) = true ∧
          (r.xAdminToken.getD [] = web.adminToken.getD [] → OriginReadable web r)) := by
  unfold adminDenied
  dsimp only
  by_cases hset : web.adminToken.getD [] = []
  · rw [if_pos hset]
    exact iff_of_true (returns_ok _) (Or.inl hset)
  rw [if_neg hset, or_iff_right hset, returns_bind, ← and_assoc, ← compareDigest_returns]
  constructor
  -- the origin is only read when the token matches
  · rintro ⟨same, hsame, hrest⟩
    refine ⟨⟨same, hsame⟩, fun heq => ?_⟩
    rw [(compareDigest_eq_ok.mp hsame).2, decide_eq_true heq] at hrest
    obtain ⟨allowed, hallowed, -⟩ := returns_bind.mp hrest
    exact checkOrigin_returns.mp ⟨allowed, hallowed⟩
  · rintro ⟨⟨same, hsame⟩, horigin⟩
    refine ⟨same, hsame, ?_⟩
    cases same with
    | false => exact returns_ok _
    | true =>
      have heq := of_decide_eq_true (compareDigest_eq_ok.mp hsame).2.symm
      obtain ⟨allowed, hallowed⟩ := checkOrigin_returns.mpr (horigin heq)
      refine returns_bind.mpr ⟨allowed, hallowed, ?_⟩
      cases allowed <;> exact returns_ok _

/-- The session gate answers exactly when the origin and then the cookie can be read. -/
theorem sessionDenied_returns {web : Web} {path : Str} {r : Request} :
    Returns (sessionDenied web path r) ↔
      OriginReadable web r ∧ (checkOrigin web r = .ok true →
        r.sessionCookie.getD [] ≠ [] → CookieReadable web (r.sessionCookie.getD [])) := by
  rw [sessionDenied, returns_bind, ← checkOrigin_returns]
  constructor
  · rintro ⟨allowed, hallowed, hrest⟩
    refine ⟨⟨allowed, hallowed⟩, fun htrue hcookie => ?_⟩
    obtain rfl := Except.ok.inj (hallowed.symm.trans htrue)
    obtain ⟨userId, huser, -⟩ := returns_bind.mp hrest
    rw [cookieUser, if_pos hcookie] at huser
    exact resolveSessionUserId_returns.mp ⟨userId, huser⟩
  · rintro ⟨⟨allowed, hallowed⟩, hcookie⟩
    refine ⟨allowed, hallowed, ?_⟩
    cases allowed with
    | false => exact returns_ok _
    | true =>
      have huser : Returns (cookieUser web r) := by
        unfold cookieUser
        dsimp only
        split_ifs with hne
        · exact resolveSessionUserId_returns.mpr (hcookie hallowed hne)
        · exact returns_ok none
      obtain ⟨userId, huser⟩ := huser
      refine returns_bind.mpr ⟨userId, huser, ?_⟩
      cases userId <;> exact returns_ok _

/-- The gate decides at `path` exactly when every library call stays in its domain. -/
theorem decideAt_returns {web : Web} {path : Str} {r : Request} :
    Returns (decideAt web path r) ↔ Readable web path r := by
  unfold decideAt Readable
  by_cases hpublic : path ∈ authPublicPaths
  · rw [if_pos hpublic]
    exact iff_of_true (returns_ok _) (Or.inl hpublic)
  rw [if_neg hpublic, or_iff_right hpublic, returns_map, denied]
  by_cases hadmin : startsWith path (lit "/admin/") = true
  · rw [if_pos hadmin, if_pos hadmin, returns_map, adminDenied_returns]
  · rw [if_neg hadmin, if_neg hadmin, sessionDenied_returns]

/-! ## The decision

Given that a gate returns, what it returns. Refusals are never anything but the gate's own responses.
-/

/-- A refusal and an acceptance exclude each other. -/
theorem refused_spec {response : Response} {P : Prop} (hown : response ∈ ownResponses) (hP : ¬P) :
    (some response = none ↔ P) ∧ ∀ x ∈ some response, x ∈ ownResponses :=
  ⟨iff_of_false (Option.some_ne_none response) hP, fun _ hx => Option.mem_some_iff.mp hx ▸ hown⟩

/-- No response is the middleware's own when it accepts. -/
theorem accepted_spec {P : Prop} (hP : P) :
    ((none : Option Response) = none ↔ P) ∧ ∀ x ∈ (none : Option Response), x ∈ ownResponses :=
  ⟨iff_of_true rfl hP, fun _ hx => by cases hx⟩

/-- The token gate lets through exactly the requests with the token and a good origin. -/
theorem adminDenied_spec {web : Web} {r : Request} {d : Option Response}
    (h : adminDenied web r = .ok d) :
    (d = none ↔ AdminAccepted web r) ∧ ∀ response ∈ d, response ∈ ownResponses := by
  unfold adminDenied at h
  dsimp only at h
  by_cases hset : web.adminToken.getD [] = []
  · rw [if_pos hset] at h
    obtain rfl := Except.ok.inj h
    exact refused_spec (by simp [ownResponses]) fun hacc => hacc.configured hset
  rw [if_neg hset] at h
  obtain ⟨same, hsame, h⟩ := bind_eq_ok.mp h
  obtain ⟨-, hsame⟩ := compareDigest_eq_ok.mp hsame
  cases same with
  | false =>
    obtain rfl := Except.ok.inj h
    exact refused_spec (by simp [ownResponses]) fun hacc => of_decide_eq_false hsame.symm hacc.token
  | true =>
    obtain ⟨allowed, hallowed, h⟩ := bind_eq_ok.mp h
    cases allowed with
    | false =>
      obtain rfl := Except.ok.inj h
      refine refused_spec (by simp [ownResponses]) fun hacc => ?_
      exact absurd (Except.ok.inj (hallowed.symm.trans hacc.origin)) (by decide)
    | true =>
      obtain rfl := Except.ok.inj h
      exact accepted_spec ⟨hset, of_decide_eq_true hsame.symm, hallowed⟩

/-- A user is known by a cookie that resolves to it. -/
theorem cookieUser_eq_some {web : Web} {r : Request} {u : ℤ} :
    cookieUser web r = .ok (some u) ↔ ∃ cookie, r.sessionCookie = some cookie ∧ cookie ≠ [] ∧
      resolveSessionUserId web.session web.users web.now cookie = .ok (some u) := by
  unfold cookieUser
  cases r.sessionCookie with
  | none => simp
  | some cookie =>
    by_cases hne : cookie = []
    · simp [hne]
    · simp [hne]

/-- The only path that a guest is denied is the export. -/
theorem guestDenied_spec (path : Str) :
    (guestDenied path = none ↔ ¬startsWith path (lit "/api/export") = true) ∧
      ∀ response ∈ guestDenied path, response ∈ ownResponses := by
  unfold guestDenied
  by_cases hexport : startsWith path (lit "/api/export") = true
  · rw [if_pos hexport]
    have hown : guestForbidden ∈ ownResponses := by simp [ownResponses]
    exact refused_spec hown (not_not.mpr hexport)
  · rw [if_neg hexport]
    exact accepted_spec hexport

/-- The session gate lets through exactly the requests with a session for the path. -/
theorem sessionDenied_spec {web : Web} {path : Str} {r : Request} {d : Option Response}
    {identity : Option Identity} (h : sessionDenied web path r = .ok (d, identity)) :
    (d = none ↔ ∃ cookie userId, SessionAccepted web path r cookie userId) ∧
      ∀ response ∈ d, response ∈ ownResponses := by
  obtain ⟨allowed, hallowed, h⟩ := bind_eq_ok.mp h
  cases allowed with
  | false =>
    cases h
    refine refused_spec (by simp [ownResponses]) ?_
    rintro ⟨cookie, u, hacc⟩
    exact absurd (Except.ok.inj (hallowed.symm.trans hacc.origin)) (by decide)
  | true =>
    obtain ⟨user, huser, h⟩ := bind_eq_ok.mp h
    have hunique {cookie : Str} {u : ℤ} (hacc : SessionAccepted web path r cookie u) :
        user = some u :=
      Except.ok.inj (huser.symm.trans
        (cookieUser_eq_some.mpr ⟨cookie, hacc.carried, hacc.present, hacc.resolved⟩))
    cases user with
    | none =>
      cases h
      refine refused_spec ?_ ?_
      · unfold unauthenticated
        split_ifs <;> simp [ownResponses]
      · rintro ⟨cookie, u, hacc⟩
        cases hunique hacc
    | some u =>
      cases h
      obtain ⟨cookie, hcarried, hpresent, hresolved⟩ := cookieUser_eq_some.mp huser
      have hguest := guestDenied_spec path
      by_cases hu : u = guestUserId
      · rw [if_pos (decide_eq_true hu)]
        refine ⟨hguest.1.trans ⟨fun hexport => ?_, ?_⟩, hguest.2⟩
        · exact ⟨cookie, u, hcarried, hpresent, hresolved, hallowed, fun hboth => hexport hboth.2⟩
        · rintro ⟨cookie', u', hacc⟩ hexport
          obtain rfl := Option.some.inj (hunique hacc)
          exact hacc.notExport ⟨hu, hexport⟩
      · rw [if_neg (by simpa using hu)]
        exact accepted_spec
          ⟨cookie, u, hcarried, hpresent, hresolved, hallowed, fun hboth => hu hboth.1⟩

/-- What the two gates let through is what opens the gate at a path that is not public. -/
theorem denied_spec {web : Web} {path : Str} {r : Request} {d : Option Response}
    {identity : Option Identity} (hpublic : path ∉ authPublicPaths)
    (h : denied web path r = .ok (d, identity)) :
    (d = none ↔ GateOpens web path r) ∧ ∀ response ∈ d, response ∈ ownResponses := by
  unfold denied at h
  rw [GateOpens, or_iff_right hpublic]
  by_cases hadmin : startsWith path (lit "/admin/") = true
  · rw [if_pos hadmin] at h
    simp only [hadmin, true_and, Bool.true_eq_false, false_and, or_false]
    cases hd : adminDenied web r with
    | error e =>
      rw [hd] at h
      cases h
    | ok x =>
      rw [hd] at h
      cases h
      exact adminDenied_spec hd
  · rw [if_neg hadmin] at h
    rw [Bool.not_eq_true] at hadmin
    simp only [hadmin, true_and, Bool.false_eq_true, false_and, false_or]
    exact sessionDenied_spec h

/-- A decision at `path` is one of the gate's responses, or the gate opens. -/
theorem decideAt_spec {web : Web} {path : Str} {r : Request} {decision : Decision}
    (h : decideAt web path r = .ok decision) :
    match decision with
    | .respond response => response ∈ ownResponses ∧ ¬GateOpens web path r
    | .callNext _ => GateOpens web path r := by
  unfold decideAt at h
  by_cases hpublic : path ∈ authPublicPaths
  · rw [if_pos hpublic] at h
    cases h
    exact Or.inl hpublic
  · rw [if_neg hpublic] at h
    cases hd : denied web path r with
    | error e =>
      rw [hd] at h
      cases h
    | ok x =>
      obtain ⟨d, identity⟩ := x
      obtain ⟨hopens, hown⟩ := denied_spec hpublic hd
      rw [hd] at h
      cases d with
      | none =>
        cases h
        exact hopens.mp rfl
      | some response =>
        cases h
        exact ⟨hown response rfl, fun hopen => by cases hopens.mpr hopen⟩

/-- The gate always decides, and decides closed, exactly when the path of the request can be read, no
library call on the way leaves its domain, and a path that differs from the routed one does not open
the gate for a request that may not pass. -/
theorem authMiddleware_failsClosed_iff (web : Web) (r : Request) :
    FailsClosed web r ↔ ∃ path, web.urlPath r = .ok path ∧ Readable web path r ∧
      (path = r.path ∨ ¬GateOpens web path r ∨ MayPass web r.path r) := by
  constructor
  · rintro ⟨decision, h, hdecision⟩
    obtain ⟨path, hpath, hat⟩ := bind_eq_ok.mp h
    refine ⟨path, hpath, decideAt_returns.mp ⟨decision, hat⟩, ?_⟩
    have hspec := decideAt_spec hat
    cases decision with
    | respond response => exact Or.inr (Or.inl hspec.2)
    | callNext identity => exact Or.inr (Or.inr hdecision)
  · rintro ⟨path, hpath, hreadable, hroute⟩
    obtain ⟨decision, hat⟩ := decideAt_returns.mpr hreadable
    refine ⟨decision, bind_eq_ok.mpr ⟨path, hpath, hat⟩, ?_⟩
    have hspec := decideAt_spec hat
    cases decision with
    | respond response => exact hspec.1
    | callNext identity =>
      rcases hroute with rfl | hclosed | hmay
      · exact GateOpens.mayPass hspec
      · exact absurd hspec hclosed
      · exact hmay

/-- A deployment with an admin token whose library calls take every text as it is. -/
def plainWeb : Web where
  session := ⟨default, default, plainRepr⟩
  users := fun _ => none
  now := 0
  adminToken := some (lit "token")
  urlPath := fun r => .ok r.path
  netloc := fun text => .ok text

/-- A request for the ingest endpoint with the Latin-1 header `X-Admin-Token: é`. -/
def latinTokenRequest : Request where
  method := lit "POST"
  path := lit "/admin/ingest"
  host := some (lit "localhost")
  origin := none
  referer := none
  xAdminToken := some [cp 'é']
  sessionCookie := none

/-- `hmac.compare_digest` raises on the header, and nothing catches it. -/
theorem latinTokenRequest_not_failsClosed : ¬FailsClosed plainWeb latinTokenRequest := by
  rintro ⟨decision, h, -⟩
  cases h

end Ghpulse.Session
