import Ghpulse.Login.RateLimit
import Ghpulse.Library.Runs
import Ghpulse.Session.Middleware
import Ghpulse.Session.Unforgeable

/-!
# Signing in

The sign-in system as a whole: visitors post the login form or continue as guests, the gate lets requests
through, and all the while the owner of the external `users` table changes it as it likes. Nobody gets
the identity of a user who has not signed in with the password (`identity_of_login`), and who has signed
in keeps the identity for the whole term, whatever other visitors do, unless the owner takes the secret
away (`identity_lasts`).

References: `backend/login.py`, `backend/session.py`, `backend/auth.py`.
-/

open Python Ghpulse.Session Ghpulse.Login

namespace Ghpulse.System

/-! ## The system

Three kinds of parties: visitors, who only know what they are told; the owner of the table, who may do
anything to it, also while a visit is in progress; and the process, with its secrets and its digest.
-/

/-- What the process is set up with: its sessions, `auth.pbkdf2`, and whether a float counts as true. -/
structure Setting where
  env : Env
  pbkdf2 : Str → Config → Except Error Str
  floatTruthy : Decimal → Bool

/-- What the process computes with. -/
def Setting.crypto (setting : Setting) : Crypto Decimal :=
  ⟨setting.env.digest, setting.pbkdf2, setting.floatTruthy⟩

/-- One `POST /login`, with the tokens that are drawn for it. -/
structure Visit where
  ip : Str
  userId : Str
  password : Str
  checkAt : ℚ
  verifyAt : ℚ
  recordAt : ℚ
  /-- What the owner does to the table between the two times it is read. -/
  meanwhile : Users → Users
  /-- `token_urlsafe(32)`. -/
  secret : UrlSafe
  /-- `token_urlsafe(10)`. -/
  nonce : UrlSafe
  tokenAt : ℚ

/-- The attempt that a visit makes on a table. -/
def Visit.attempt (v : Visit) (users : Users) : Attempt Decimal where
  ip := v.ip
  userId := v.userId
  password := v.password
  checkAt := v.checkAt
  verifyAt := v.verifyAt
  recordAt := v.recordAt
  loadUserConfig := loadUserConfig users
  ensureUserSessionSecret uid :=
    (ensureUserSessionSecret v.secret (v.meanwhile users) uid).map Prod.fst
  nonce := v.nonce
  tokenAt := v.tokenAt

/-- The account of a visit. -/
def Visit.uid (v : Visit) : ℤ := (int (strip v.userId)).getD 0

variable (setting : Setting)

/-- The account has a password, and the visit gave it. -/
def Visit.accepted (v : Visit) (users : Users) : Bool :=
  match (v.attempt users).passwordConfig setting.crypto,
    (v.attempt users).validPassword setting.crypto with
  | .ok (some _), .ok true => true
  | _, _ => false

/-- The address of a visit has used up its failures. -/
def Visit.limited (v : Visit) (failures : Failures) : Bool :=
  (checkLoginRateLimit v.ip v.checkAt failures).1

/-- The table after a visit: the secret is created only for a visit that is let in. -/
def Visit.usersAfter (v : Visit) (users : Users) (failures : Failures) : Users :=
  if !v.limited failures && v.accepted setting users then
    match ensureUserSessionSecret v.secret (v.meanwhile users) v.uid with
    | .ok (_, users') => users'
    | .error _ => v.meanwhile users
  else v.meanwhile users

/-- The token that `make_session_token` mints, if it returns. -/
def mint (d : Digest) (now : ℚ) (nonce : UrlSafe) (userId : ℤ) (secret : Str) : List (Mint d) :=
  match h : makeSessionToken d now nonce userId secret with
  | .ok token => [⟨userId, secret, now, nonce, token, h⟩]
  | .error _ => []

/-- The token that a visit obtains. -/
def Visit.minted (v : Visit) (users : Users) (failures : Failures) : List (Mint setting.env.digest) :=
  if !v.limited failures && v.accepted setting users then
    match ensureUserSessionSecret v.secret (v.meanwhile users) v.uid with
    | .ok (some (c :: cs), _) => mint setting.env.digest v.tokenAt v.nonce v.uid (c :: cs)
    | _ => []
  else []

/-- The users table, the failures that count, and the tokens minted so far. -/
structure Site where
  users : Users
  failures : Failures
  minted : List (Mint setting.env.digest)

/-- What happens to the system; requests change nothing. -/
inductive Act where
  /-- `POST /login`. -/
  | login (v : Visit)
  /-- `POST /login/guest`. -/
  | guest (now : ℚ) (nonce : UrlSafe)
  /-- The owner changes the table. -/
  | owner (change : Users → Users)

variable {setting}

/-- One step of the system. -/
def Site.step (s : Site setting) : Act → Option (Site setting)
  | .login v => some
      { users := v.usersAfter setting s.users s.failures
        failures := (loginPost setting.crypto (v.attempt s.users) s.failures).2
        minted := s.minted ++ v.minted setting s.users s.failures }
  | .guest now nonce => some
      { s with
        minted := s.minted ++
          mint setting.env.digest now nonce guestUserId setting.env.guestSecret.text }
  | .owner change => some { s with users := change s.users }

/-- The answer to a visit. -/
def Site.answer (s : Site setting) (v : Visit) : Except Error Login.Response :=
  (loginPost setting.crypto (v.attempt s.users) s.failures).1

/-- A process that has just started. -/
def Site.fresh (users : Users) : Site setting := ⟨users, fun _ => [], []⟩

/-! ## Visits

When a visit is let in, in terms of the account and the password alone. The steps of `login_post` that can
raise are only taken when the earlier ones have returned.
-/

/-- A visit proves an account: the row of its user has a password, and the visit gave it. -/
structure Visit.Proves (setting : Setting) (v : Visit) (users : Users) : Prop where
  positive : 0 < v.uid
  config : ∃ config, loadUserConfig users v.uid = .ok (some config) ∧
    hasWebPassword setting.crypto config = .ok true ∧
    verifyWebPassword setting.crypto config v.password = .ok true

/-- Only an object with both fields has a password, so it counts as true. -/
theorem truthy_of_hasWebPassword {ν : Type} {crypto : Crypto ν} {config : Json ν}
    (h : hasWebPassword crypto config = .ok true) : truthy crypto config = true := by
  cases config with
  | dict fields =>
    cases fields with
    | nil => cases h
    | cons f fs => rfl
  | _ => cases h

/-- The account that an attempt is made on, if it has a password. -/
theorem passwordConfig_eq_some {v : Visit} {users : Users} {config : Config} :
    (v.attempt users).passwordConfig setting.crypto = .ok (some config) ↔
      0 < v.uid ∧ loadUserConfig users v.uid = .ok (some config) ∧
        hasWebPassword setting.crypto config = .ok true := by
  have huid : (v.attempt users).uid = v.uid := rfl
  have hload : (v.attempt users).loadUserConfig = loadUserConfig users := rfl
  rw [Attempt.passwordConfig, huid, hload]
  by_cases hpos : 0 < v.uid
  · rw [if_pos hpos, bind_eq_ok]
    constructor
    · rintro ⟨loaded, hloaded, h⟩
      dsimp only at h
      cases hfilter : loaded.filter (truthy setting.crypto) with
      | none =>
        rw [hfilter] at h
        cases h
      | some found =>
        rw [hfilter] at h
        obtain ⟨has, hhas, h⟩ := bind_eq_ok.mp h
        have h := Except.ok.inj h
        split_ifs at h with htrue
        obtain rfl := Option.some.inj h
        rw [htrue] at hhas
        exact ⟨hpos, (Option.filter_eq_some_iff.mp hfilter).1 ▸ hloaded, hhas⟩
    · rintro ⟨-, hloaded, hhas⟩
      refine ⟨some config, hloaded, ?_⟩
      have hfilter : (some config).filter (truthy setting.crypto) = some config :=
        Option.filter_eq_some_iff.mpr ⟨rfl, truthy_of_hasWebPassword hhas⟩
      dsimp only
      rw [hfilter]
      exact bind_eq_ok.mpr ⟨true, hhas, rfl⟩
  · rw [if_neg hpos]
    exact iff_of_false (fun h => nomatch h) fun h => hpos h.1

/-- A visit is accepted exactly when it proves its account. -/
theorem accepted_iff {v : Visit} {users : Users} :
    v.accepted setting users = true ↔ v.Proves setting users := by
  constructor
  · intro h
    unfold Visit.accepted at h
    split at h
    · rename_i config hconfig hvalid
      obtain ⟨hpos, hload, hhas⟩ := passwordConfig_eq_some.mp hconfig
      rw [Attempt.validPassword, hconfig] at hvalid
      exact ⟨hpos, config, hload, hhas, hvalid⟩
    · cases h
  · rintro ⟨hpos, config, hload, hhas, hverify⟩
    have hconfig := passwordConfig_eq_some.mpr ⟨hpos, hload, hhas⟩
    have hvalid : (v.attempt users).validPassword setting.crypto = .ok true := by
      rw [Attempt.validPassword, hconfig]
      exact hverify
    rw [Visit.accepted, hconfig, hvalid]

/-- The tokens that a call mints are of its user, secret, clock and nonce. -/
theorem of_mem_mint {d : Digest} {now : ℚ} {nonce : UrlSafe} {userId : ℤ} {secret : Str} {m : Mint d}
    (h : m ∈ mint d now nonce userId secret) :
    m.userId = userId ∧ m.secret = secret ∧ m.clock = now ∧ m.nonce = nonce := by
  unfold mint at h
  split at h
  · obtain rfl := List.mem_singleton.mp h
    exact ⟨rfl, rfl, rfl, rfl⟩
  · cases h

/-- A token that was made was minted. -/
theorem exists_mem_mint {d : Digest} {now : ℚ} {nonce : UrlSafe} {userId : ℤ} {secret token : Str}
    (h : makeSessionToken d now nonce userId secret = .ok token) :
    ∃ m ∈ mint d now nonce userId secret, m.token = token := by
  unfold mint
  split
  · rename_i token' htoken
    exact ⟨_, List.mem_singleton_self _, Except.ok.inj (htoken.symm.trans h)⟩
  · rename_i e herror
    cases herror.symm.trans h

/-- A verified visit is let in when it is accepted and its token is minted under the secret of the
account. -/
theorem authenticate_eq_some {v : Visit} {users : Users} {token : Str} :
    authenticate setting.crypto (v.attempt users) = .ok (some token) ↔
      v.accepted setting users = true ∧
        ∃ secret users', ensureUserSessionSecret v.secret (v.meanwhile users) v.uid =
            .ok (some secret, users') ∧ secret ≠ [] ∧
          makeSessionToken setting.env.digest v.tokenAt v.nonce v.uid secret = .ok token := by
  have hensure {secret : Option Str} : (v.attempt users).ensureUserSessionSecret v.uid = .ok secret ↔
      ∃ users', ensureUserSessionSecret v.secret (v.meanwhile users) v.uid = .ok (secret, users') := by
    change (ensureUserSessionSecret v.secret (v.meanwhile users) v.uid).map Prod.fst = _ ↔ _
    cases ensureUserSessionSecret v.secret (v.meanwhile users) v.uid with
    | error e => simp [Except.map]
    | ok ensured => simp [Except.map, Prod.ext_iff]
  unfold authenticate
  rw [bind_eq_ok, Visit.accepted]
  constructor
  · rintro ⟨config, hconfig, h⟩
    obtain ⟨valid, hvalid, h⟩ := bind_eq_ok.mp h
    cases config with
    | none => cases h
    | some config =>
      cases valid with
      | false => cases h
      | true =>
        obtain ⟨secret, hsecret, h⟩ := bind_eq_ok.mp h
        obtain ⟨users', hsecret⟩ := hensure.mp hsecret
        rcases secret with _ | _ | ⟨c, cs⟩
        · cases h
        · cases h
        · obtain ⟨token', htoken, h⟩ := bind_eq_ok.mp h
          obtain rfl := Option.some.inj (Except.ok.inj h)
          rw [hconfig, hvalid]
          exact ⟨rfl, c :: cs, users', hsecret, List.cons_ne_nil c cs, htoken⟩
  · rintro ⟨haccepted, secret, users', hsecret, hne, htoken⟩
    split at haccepted
    · rename_i config hconfig hvalid
      refine ⟨some config, hconfig, bind_eq_ok.mpr ⟨true, hvalid, ?_⟩⟩
      refine bind_eq_ok.mpr ⟨some secret, hensure.mpr ⟨users', hsecret⟩, ?_⟩
      cases secret with
      | nil => exact absurd rfl hne
      | cons c cs => exact bind_eq_ok.mpr ⟨token, htoken, rfl⟩
    · cases haccepted

/-- A visit is answered with a token exactly when it is not limited, proves its account, and the token is
minted under the secret of the account. -/
theorem answer_eq_signedIn {s : Site setting} {v : Visit} {token : Str} :
    s.answer v = .ok (signedIn token) ↔
      v.limited s.failures = false ∧ v.accepted setting s.users = true ∧
        ∃ secret users', ensureUserSessionSecret v.secret (v.meanwhile s.users) v.uid =
            .ok (some secret, users') ∧ secret ≠ [] ∧
          makeSessionToken setting.env.digest v.tokenAt v.nonce v.uid secret = .ok token := by
  have hlimited : (checkLoginRateLimit (v.attempt s.users).ip (v.attempt s.users).checkAt
      s.failures).1 = v.limited s.failures := rfl
  unfold Site.answer loginPost
  rw [← authenticate_eq_some]
  dsimp only
  rw [hlimited]
  cases v.limited s.failures with
  | true => simp [tooMany, signedIn]
  | false =>
    rcases authenticate setting.crypto (v.attempt s.users) with e | _ | token'
    · simp
    · simp [invalidCredentials, signedIn]
    · simp [signedIn]

/-- A visit mints the token that it is answered with. -/
theorem answer_of_mem_minted {s : Site setting} {v : Visit} {m : Mint setting.env.digest}
    (h : m ∈ v.minted setting s.users s.failures) :
    s.answer v = .ok (signedIn m.token) ∧ m.userId = v.uid ∧ m.clock = v.tokenAt := by
  unfold Visit.minted at h
  split_ifs at h with hin
  · rw [Bool.and_eq_true, Bool.not_eq_true'] at hin
    split at h
    · rename_i c cs users' hsecret
      obtain ⟨huser, hmsecret, hclock, hnonce⟩ := of_mem_mint h
      have htoken := m.minted
      rw [huser, hmsecret, hclock, hnonce] at htoken
      have hanswer := answer_eq_signedIn.mpr
        ⟨hin.1, hin.2, c :: cs, users', hsecret, List.cons_ne_nil c cs, htoken⟩
      exact ⟨hanswer, huser, hclock⟩
    · cases h
  · cases h

/-! ## The gate

How the identity of a request comes from its cookie. Requests do not change the state, so nothing more
about them is needed.
-/

/-- An identity that the session gate leaves in a request is that of its cookie. -/
theorem resolved_of_sessionDenied {web : Web} {path : Str} {r : Request}
    {response : Option Session.Response} {identity : Identity}
    (h : sessionDenied web path r = .ok (response, some identity)) :
    ∃ cookie, r.sessionCookie = some cookie ∧
      resolveSessionUserId web.session web.users web.now cookie = .ok (some identity.userId) ∧
      identity.isGuest = decide (identity.userId = guestUserId) := by
  obtain ⟨allowed, -, h⟩ := bind_eq_ok.mp h
  cases allowed with
  | false => cases h
  | true =>
    obtain ⟨user, huser, h⟩ := bind_eq_ok.mp h
    cases user with
    | none => cases h
    | some u =>
      cases h
      obtain ⟨cookie, hcarried, -, hresolved⟩ := cookieUser_eq_some.mp huser
      exact ⟨cookie, hcarried, hresolved, rfl⟩

/-- An identity that the gate lets through is that of the cookie. -/
theorem resolved_of_identity {web : Web} {r : Request} {identity : Identity}
    (h : authMiddleware web r = .ok (.callNext (some identity))) :
    ∃ cookie, r.sessionCookie = some cookie ∧
      resolveSessionUserId web.session web.users web.now cookie = .ok (some identity.userId) ∧
      identity.isGuest = decide (identity.userId = guestUserId) := by
  obtain ⟨path, -, h⟩ := bind_eq_ok.mp h
  unfold decideAt at h
  split_ifs at h with hpublic
  · cases h
  · cases hdenied : denied web path r with
    | error e =>
      rw [hdenied] at h
      cases h
    | ok left =>
      rw [hdenied] at h
      obtain ⟨response, left⟩ := left
      cases response with
      | some response => cases h
      | none =>
        cases h
        unfold denied at hdenied
        split_ifs at hdenied with hadmin
        · cases hadminDenied : adminDenied web r with
          | error e =>
            rw [hadminDenied] at hdenied
            cases hdenied
          | ok response =>
            rw [hadminDenied] at hdenied
            cases hdenied
        · exact resolved_of_sessionDenied hdenied

/-- The gate lets a user's request through, with the identity of its cookie. -/
theorem authMiddleware_of_resolved {web : Web} {r : Request} {path token : Str} {userId : ℤ}
    (hpath : web.urlPath r = .ok path) (hpublic : path ∉ authPublicPaths)
    (hadmin : startsWith path (lit "/admin/") = false) (horigin : checkOrigin web r = .ok true)
    (hcookie : r.sessionCookie = some token) (htoken : token ≠ []) (hne : userId ≠ guestUserId)
    (hresolved : resolveSessionUserId web.session web.users web.now token = .ok (some userId)) :
    authMiddleware web r = .ok (.callNext (some ⟨userId, false⟩)) := by
  have huser : cookieUser web r = .ok (some userId) :=
    cookieUser_eq_some.mpr ⟨token, hcookie, htoken, hresolved⟩
  have hdenied : sessionDenied web path r = .ok (none, some ⟨userId, false⟩) := by
    refine bind_eq_ok.mpr ⟨true, horigin, bind_eq_ok.mpr ⟨some userId, huser, ?_⟩⟩
    dsimp only
    rw [decide_eq_false hne]
    rfl
  refine bind_eq_ok.mpr ⟨path, hpath, ?_⟩
  rw [decideAt, if_neg hpublic, denied, if_neg (by rw [hadmin]; exact Bool.false_ne_true), hdenied]
  rfl

/-! ## A visit

The user with the number seven, who signs in with the password `open`.
-/

/-- A process with a digest that collides, and a password function that tells `open` from the rest. -/
def openSetting : Setting where
  env := guestEnv
  pbkdf2 password _ := .ok (if password = lit "open" then lit "a" else lit "b")
  floatTruthy _ := true

/-- A row with the password `open` and no session secret. -/
def openFields : List (Str × Config) :=
  [(webPasswordSaltKey, .str (lit "A")), (webPasswordHashKey, .str (lit "a"))]

/-- A table that holds the row for everybody. -/
def openUsers : Users := fun _ => some (some (.dict openFields))

/-- The seventh user signs in at clock zero. -/
def openVisit : Visit where
  ip := lit "203.0.113.9"
  userId := lit "7"
  password := lit "open"
  checkAt := 0
  verifyAt := 0
  recordAt := 0
  meanwhile := id
  secret := default
  nonce := default
  tokenAt := 0

/-- The token of the visit. -/
def openToken : Str := lit "7.0.A" ++ cp '.' :: openSetting.env.digest.hexdigest (lit "A") (lit "7.0.A")

/-- The token of the visit. -/
theorem makeSessionToken_openToken :
    makeSessionToken openSetting.env.digest 0 default 7 (lit "A") = .ok openToken := by
  have hclock : truncate 0 = 0 := by rw [truncate, if_pos le_rfl, Int.floor_zero]
  refine makeSessionToken_eq_ok.mpr ⟨lit "7.0.A", ?_, ⟨rfl, rfl⟩, rfl⟩
  rw [hclock]
  rfl

/-- The visit is signed in with it. -/
theorem openVisit_answer :
    (Site.fresh openUsers : Site openSetting).answer openVisit = .ok (signedIn openToken) :=
  answer_eq_signedIn.mpr ⟨rfl, rfl, lit "A", _, rfl, by decide, makeSessionToken_openToken⟩

/-- The state after the visit. -/
def openSite : Site openSetting where
  users := openVisit.usersAfter openSetting openUsers fun _ => []
  failures := (loginPost openSetting.crypto (openVisit.attempt openUsers) fun _ => []).2
  minted := openVisit.minted openSetting openUsers fun _ => []

/-- The process a minute later. -/
def openWeb (users : Users) : Web where
  session := openSetting.env
  users := users
  now := 60
  adminToken := none
  urlPath := fun r => .ok r.path
  netloc := fun text => .ok text

/-- A request with the token. -/
def openRequest : Request where
  method := lit "GET"
  path := lit "/api/dashboard"
  host := none
  origin := none
  referer := none
  xAdminToken := none
  sessionCookie := some openToken

/-- The token was minted under the secret that is checked a minute later, so nothing of it is forged. -/
theorem unforged_openToken :
    Unforged openSetting.env (openWeb openSite.users).users openSite.minted openToken := by
  obtain ⟨m, hm, htoken⟩ := exists_mem_mint makeSessionToken_openToken
  obtain ⟨huser, hsecret, -, -⟩ := of_mem_mint hm
  refine unforged_minted (m := m) hm ?_ (congrArg parseSessionToken htoken.symm)
  rw [huser, hsecret]
  rfl

/-! ## Where identities come from

An identity is traced back in two steps: the token that was resolved has been minted in the run, and the
step at which it came to be minted has checked the password.
-/

/-- What a step grants to whoever shows its token at a time. -/
def Act.Grants (s : Site setting) (now : ℚ) (identity : Identity) : Act → Prop
  | .login v => identity = ⟨v.uid, false⟩ ∧ v.Proves setting s.users ∧
      (∃ token, s.answer v = .ok (signedIn token)) ∧ InTerm now (truncate v.tokenAt)
  | .guest tokenAt _ => identity = ⟨guestUserId, true⟩ ∧ InTerm now (truncate tokenAt)
  | .owner _ => False

/-- A token comes to be minted by a visit or for a guest. -/
theorem minted_of_step {s s' : Site setting} {a : Act} {m : Mint setting.env.digest}
    (h : s.step a = some s') (hm : m ∉ s.minted) (hm' : m ∈ s'.minted) :
    (∃ v, a = .login v ∧ m ∈ v.minted setting s.users s.failures) ∨
      ∃ now nonce, a = .guest now nonce ∧
        m ∈ mint setting.env.digest now nonce guestUserId setting.env.guestSecret.text := by
  cases a with
  | login v =>
    obtain rfl := Option.some.inj h
    exact Or.inl ⟨v, rfl, (List.mem_append.mp hm').resolve_left hm⟩
  | guest now nonce =>
    obtain rfl := Option.some.inj h
    exact Or.inr ⟨now, nonce, rfl, (List.mem_append.mp hm').resolve_left hm⟩
  | owner change =>
    obtain rfl := Option.some.inj h
    exact absurd hm' hm

/-- Whoever the gate lets through with an identity, in any state that a fresh process reaches, got it from
a step that grants it: the guest from a guest sign-in, a user from a visit that proved the user's own row
of the table at that moment and was not limited, and both within their term. The cookie is assumed not to
be forged under the secret that is checked now. -/
theorem identity_of_login {users : Users} {as : List Act} {s : Site setting} {web : Web} {r : Request}
    {identity : Identity} (hrun : Runs.run Site.step (Site.fresh users) as = some s)
    (hsession : web.session = setting.env)
    (hunforged : ∀ cookie, r.sessionCookie = some cookie →
      Unforged setting.env web.users s.minted cookie)
    (h : authMiddleware web r = .ok (.callNext (some identity))) :
    ∃ (m : Site setting) (a : Act) (m' : Site setting),
      Runs.Takes Site.step (Site.fresh users) as m a m' ∧ a.Grants m web.now identity := by
  obtain ⟨cookie, hcarried, hresolved, hguest⟩ := resolved_of_identity h
  rw [hsession] at hresolved
  -- the token was minted in the run, for the same user and time
  obtain ⟨minted, hminted, -, -, huser, -, -, -, hterm⟩ :=
    exists_mint_of_resolve (hunforged cookie hcarried) hresolved
  have hnot : minted ∉ (Site.fresh users : Site setting).minted := List.not_mem_nil
  obtain ⟨m, a, m', htakes, hbefore, hafter⟩ :=
    Runs.exists_takes (P := fun s : Site setting => minted ∈ s.minted) hrun hnot hminted
  refine ⟨m, a, m', htakes, ?_⟩
  obtain ⟨_, _, -, -, hstep⟩ := htakes
  rw [Mint.issuedAt] at hterm
  obtain ⟨userId, isGuest⟩ := identity
  dsimp only at huser hguest
  rcases minted_of_step hstep hbefore hafter with ⟨v, rfl, hv⟩ | ⟨now, nonce, rfl, hguestMint⟩
  -- a visit is only answered with a token after it has proved its account
  · obtain ⟨hanswer, hvisit, hclock⟩ := answer_of_mem_minted hv
    have hproves := accepted_iff.mp (answer_eq_signedIn.mp hanswer).2.1
    rw [hclock] at hterm
    rw [hvisit] at huser
    have hne : userId ≠ guestUserId := huser ▸ hproves.positive.ne'
    rw [decide_eq_false hne] at hguest
    exact ⟨by rw [huser, hguest], hproves, ⟨_, hanswer⟩, hterm⟩
  · obtain ⟨hvisit, -, hclock, -⟩ := of_mem_mint hguestMint
    rw [hclock] at hterm
    rw [hvisit] at huser
    rw [decide_eq_true huser.symm] at hguest
    exact ⟨by rw [huser, hguest], hterm⟩

/-- The seventh user is let through after the visit, and a step granted the identity. -/
theorem openVisit_identity : ∃ (m : Site openSetting) (a : Act) (m' : Site openSetting),
    Runs.Takes Site.step (Site.fresh openUsers) [.login openVisit] m a m' ∧
      a.Grants m (openWeb openSite.users).now ⟨7, false⟩ := by
  have hthrough : authMiddleware (openWeb openSite.users) openRequest =
      .ok (.callNext (some ⟨7, false⟩)) := by
    refine authMiddleware_of_resolved rfl (by decide) rfl rfl rfl (by decide) (by decide) ?_
    exact resolve_minted (by decide) rfl makeSessionToken_openToken (by norm_num [openWeb])
      (by norm_num [openWeb, sessionCookieMaxAge])
  refine identity_of_login (s := openSite) rfl rfl ?_ hthrough
  rintro cookie hcookie
  obtain rfl : openToken = cookie := Option.some.inj hcookie
  exact unforged_openToken

/-! ## How long identities last

The argument in the other direction: the secret under which the token was minted stays in force through
all steps that leave it there, and visits do.
-/

/-- What the owner does to the table in a step. -/
def Act.change : Act → Users → Users
  | .login v => v.meanwhile
  | .guest _ _ => id
  | .owner change => change

/-- The owner leaves the secret of a user in force. -/
def KeepsSecret (userId : ℤ) (s : Site setting) (a : Act) : Prop :=
  ∀ secret, InForce setting.env s.users userId secret →
    InForce setting.env (a.change s.users) userId secret

/-- The secret in force depends on the row of the user only. -/
theorem inForce_of_row {env : Env} {users users' : Users} {userId : ℤ} {secret : Str}
    (hrow : users' userId = users userId) (h : InForce env users userId secret) :
    InForce env users' userId secret := by
  have hload : loadUserConfig users' userId = loadUserConfig users userId := by
    unfold loadUserConfig
    rw [hrow]
  unfold InForce at h ⊢
  rwa [hload]

/-- Creating the secret of any user leaves every secret in force. -/
theorem inForce_of_ensure {env : Env} {minted : UrlSafe} {users users' : Users} {uid userId : ℤ}
    {returned : Option Str} {secret : Str}
    (h : ensureUserSessionSecret minted users uid = .ok (returned, users'))
    (hforce : InForce env users userId secret) : InForce env users' userId secret := by
  by_cases hguest : userId = guestUserId
  · rw [InForce, if_pos hguest] at hforce ⊢
    exact hforce
  · by_cases huid : uid = userId
    · subst huid
      have hforce' := hforce
      rw [InForce, if_neg hguest] at hforce'
      obtain ⟨fields, text, hload, hlookup, rfl, hne⟩ := hforce'
      have hexisting : existingSecret (some (.dict fields)) ≠ [] := by
        rw [existingSecret_dict, hlookup]
        exact hne
      rw [ensure_of_existing minted (of_loadUserConfig hload) hexisting] at h
      cases h
      exact hforce
    -- the row of another user is not touched
    · refine inForce_of_row ?_ hforce
      unfold ensureUserSessionSecret at h
      split at h
      · cases h
        rfl
      · split_ifs at h
        · cases h
          rfl
        · obtain ⟨updated, -, h⟩ := bind_eq_ok.mp h
          cases h
          exact Function.update_of_ne (Ne.symm huid) _ _

/-- A visit leaves every secret in force that the owner does. -/
theorem inForce_usersAfter {v : Visit} {users : Users} {failures : Failures} {userId : ℤ}
    {secret : Str} (h : InForce setting.env (v.meanwhile users) userId secret) :
    InForce setting.env (v.usersAfter setting users failures) userId secret := by
  unfold Visit.usersAfter
  split_ifs
  · cases hensure : ensureUserSessionSecret v.secret (v.meanwhile users) v.uid with
    | error e => exact h
    | ok ensured => exact inForce_of_ensure hensure h
  · exact h

/-- A secret stays in force through every step that keeps it. -/
theorem inForce_of_step {s s' : Site setting} {a : Act} {userId : ℤ} {secret : Str}
    (hstep : s.step a = some s') (hkeeps : KeepsSecret userId s a)
    (h : InForce setting.env s.users userId secret) : InForce setting.env s'.users userId secret := by
  have h := hkeeps secret h
  cases a with
  | login v =>
    obtain rfl := Option.some.inj hstep
    exact inForce_usersAfter h
  | guest now nonce =>
    obtain rfl := Option.some.inj hstep
    exact h
  | owner change =>
    obtain rfl := Option.some.inj hstep
    exact h

/-- A row that the visitors can be verified against: an object that decodes, with a secret that is missing
or a string. -/
structure PlainRow (users : Users) (userId : ℤ) (fields : List (Str × Config)) : Prop where
  stored : users userId = some (some (.dict fields))
  decodes : fieldsDecode fields = true
  plain : ∀ v, fields.lookup webSessionSecretKey = some v → ∃ text, v = .str text

/-- The secret that a login obtains from a plain row is in force afterwards. -/
theorem inForce_ensured {env : Env} {minted : UrlSafe} {users users' : Users} {userId : ℤ}
    {fields : List (Str × Config)} {secret : Str} (hne : userId ≠ guestUserId)
    (hrow : PlainRow users userId fields)
    (h : ensureUserSessionSecret minted users userId = .ok (some secret, users')) :
    InForce env users' userId secret := by
  rw [InForce, if_neg hne]
  by_cases hexisting : existingSecret (some (.dict fields)) = []
  · rw [ensure_of_blank minted hrow.stored hexisting] at h
    cases h
    have hdecodes : fieldsDecode (setField webSessionSecretKey (.str minted.text) fields) = true := by
      rw [fieldsDecode_setField fun v hv => decodes_of_lookup hrow.decodes hv]
      exact hrow.decodes
    refine ⟨_, minted.text, ?_, lookup_setField _ _ fields, minted.strip_text.symm, minted.text_ne_nil⟩
    rw [loadUserConfig_dict (Function.update_self _ _ _), if_pos hdecodes]
  · rw [ensure_of_existing minted hrow.stored hexisting] at h
    cases h
    cases hlookup : fields.lookup webSessionSecretKey with
    | none =>
      rw [existingSecret_dict, hlookup] at hexisting
      exact absurd rfl hexisting
    | some v =>
      obtain ⟨text, rfl⟩ := hrow.plain v hlookup
      have hsecret : existingSecret (some (.dict fields)) = strip text := by
        rw [existingSecret_dict, hlookup]
        rfl
      refine ⟨fields, text, ?_, hlookup, hsecret, hexisting⟩
      rw [loadUserConfig_dict hrow.stored, if_pos hrow.decodes]

/-- A secret in force is the one that is checked. -/
theorem checkedSecret_of_inForce {env : Env} {users : Users} {userId : ℤ} {secret : Str}
    (hne : userId ≠ guestUserId) (h : InForce env users userId secret) :
    checkedSecret env.py users userId = .ok (some secret) := by
  rw [InForce, if_neg hne] at h
  obtain ⟨fields, text, hload, hlookup, hsecret, hnonempty⟩ := h
  exact checkedSecret_eq_ok.mpr ⟨fields, .str text, hload, hlookup, hsecret, hnonempty⟩

/-- Whoever is let in by a visit keeps the identity for the whole term of the cookie, through any run of
other visits, guests and changes of the table that leave the user's secret in force. -/
theorem identity_lasts {s₀ s s' : Site setting} {v : Visit} {token : Str} {as : List Act}
    {fields : List (Str × Config)} (hanswer : s₀.answer v = .ok (signedIn token))
    (hrow : PlainRow (v.meanwhile s₀.users) v.uid fields) (hstep : s₀.step (.login v) = some s)
    (hrun : Runs.run Site.step s as = some s') (hkeeps : Runs.Guarded Site.step (KeepsSecret v.uid) s as)
    {web : Web} {r : Request} {path : Str} (hsession : web.session = setting.env)
    (husers : web.users = s'.users) (hfrom : v.tokenAt ≤ web.now)
    (huntil : web.now ≤ v.tokenAt + sessionCookieMaxAge) (hpath : web.urlPath r = .ok path)
    (hpublic : path ∉ authPublicPaths) (hadmin : startsWith path (lit "/admin/") = false)
    (horigin : checkOrigin web r = .ok true) (hcookie : r.sessionCookie = some token) :
    authMiddleware web r = .ok (.callNext (some ⟨v.uid, false⟩)) := by
  obtain ⟨hlimited, haccepted, secret, users', hensure, -, hmake⟩ := answer_eq_signedIn.mp hanswer
  have hne : v.uid ≠ guestUserId := (accepted_iff.mp haccepted).positive.ne'
  -- the visit has left the table that minting the secret leaves
  have hafter : s.users = users' := by
    obtain rfl := Option.some.inj hstep
    simp only [Visit.usersAfter, hlimited, haccepted, hensure]
    rfl
  have hforce : InForce setting.env s.users v.uid secret := by
    rw [hafter]
    exact inForce_ensured hne hrow hensure
  have hforce' : InForce setting.env s'.users v.uid secret :=
    Runs.run_preserves_of_guarded
      (P := fun s : Site setting => InForce setting.env s.users v.uid secret)
      (fun _ _ _ h hkeep htake => inForce_of_step htake hkeep h) hforce hkeeps hrun
  have hresolved : resolveSessionUserId web.session web.users web.now token = .ok (some v.uid) := by
    rw [hsession, husers]
    exact resolve_minted hne (checkedSecret_of_inForce hne hforce') hmake hfrom huntil
  have htoken : token ≠ [] := by
    obtain ⟨payload, -, -, rfl⟩ := makeSessionToken_eq_ok.mp hmake
    exact List.append_ne_nil_of_right_ne_nil _ (List.cons_ne_nil _ _)
  exact authMiddleware_of_resolved hpath hpublic hadmin horigin hcookie htoken hne hresolved

/-- The seventh user is let through a minute after the visit, with a guest in between and the rest of the
table cleared. -/
theorem openVisit_lasts : ∃ s : Site openSetting,
    Runs.run Site.step openSite [.guest 30 default, .owner fun users => Function.update users 8 none] =
        some s ∧
      authMiddleware (openWeb s.users) openRequest = .ok (.callNext (some ⟨7, false⟩)) := by
  have hrow : PlainRow openUsers 7 openFields := ⟨rfl, rfl, fun _ h => by cases h⟩
  have hkeeps : Runs.Guarded Site.step (KeepsSecret 7) openSite
      [.guest 30 default, .owner fun users => Function.update users 8 none] := by
    refine ⟨fun _ h => h, fun s hs => ⟨fun secret h => ?_, fun _ _ => trivial⟩⟩
    have hsame : Function.update s.users 8 none 7 = s.users 7 :=
      Function.update_of_ne (by decide) _ _
    exact inForce_of_row hsame h
  refine ⟨_, rfl, ?_⟩
  exact identity_lasts openVisit_answer hrow rfl rfl hkeeps rfl rfl (by norm_num [openWeb, openVisit])
    (by norm_num [openWeb, openVisit, sessionCookieMaxAge]) rfl (by decide) rfl rfl rfl

/-! ## Setting a password

The other end of the sign-in: what the owner does to give a user a password.
-/

/-- `auth.set_web_password` on the fields of an object, with the salt that `token_hex(16)` returned. -/
def setWebPassword (setting : Setting) (salt : Str) (fields : List (Str × Config)) (password : Str) :
    Except Error (List (Str × Config)) := do
  let digest ← setting.pbkdf2 password (.str salt)
  return setField webPasswordHashKey (.str digest) (setField webPasswordSaltKey (.str salt) fields)

/-- Another field stays as it is. -/
theorem lookup_setField_of_ne {key key' : Str} (h : key' ≠ key) (v : Config)
    (fields : List (Str × Config)) : (setField key v fields).lookup key' = fields.lookup key' := by
  induction fields with
  | nil => simp [setField, h]
  | cons f fs ih =>
    obtain ⟨k, w⟩ := f
    unfold setField
    by_cases hk : k = key
    · subst hk
      rw [if_pos rfl, List.lookup_cons, List.lookup_cons, beq_eq_false_iff_ne.mpr h]
    · rw [if_neg hk, List.lookup_cons, List.lookup_cons, ih]

/-- What is stored by setting a password. -/
theorem lookup_setWebPassword {salt password : Str} {fields fields' : List (Str × Config)}
    (h : setWebPassword setting salt fields password = .ok fields') :
    ∃ digest, setting.pbkdf2 password (.str salt) = .ok digest ∧
      fields'.lookup webPasswordHashKey = some (.str digest) ∧
      fields'.lookup webPasswordSaltKey = some (.str salt) ∧
      fields'.lookup webSessionSecretKey = fields.lookup webSessionSecretKey := by
  obtain ⟨digest, hdigest, h⟩ := bind_eq_ok.mp h
  obtain rfl := Except.ok.inj h
  refine ⟨digest, hdigest, lookup_setField _ _ _, ?_, ?_⟩
  · rw [lookup_setField_of_ne (by decide), lookup_setField]
  · rw [lookup_setField_of_ne (by decide), lookup_setField_of_ne (by decide)]

/-- A text that is not empty is truthy. -/
theorem truthyField_str {ν : Type} (crypto : Crypto ν) {fields : List (Str × Json ν)} {key text : Str}
    (h : fields.lookup key = some (.str text)) (hne : text ≠ []) :
    truthyField crypto fields key = some (.str text) := by
  have htruthy : truthy crypto (.str text) = true := decide_eq_true hne
  rw [truthyField, h, Option.filter_some_pos htruthy]

/-- With a password set, whoever gives a password with the same digest proves the account, and nobody
else. -/
theorem proves_of_setWebPassword {users : Users} {salt password : Str}
    {fields fields' : List (Str × Config)} {v : Visit}
    (hset : setWebPassword setting salt fields password = .ok fields') (hsalt : salt ≠ [])
    (hdigest : ∀ given digest, setting.pbkdf2 given (.str salt) = .ok digest →
      digest ≠ [] ∧ isAscii digest = true)
    (hstored : users v.uid = some (some (.dict fields'))) (hdecodes : fieldsDecode fields' = true)
    (hpositive : 0 < v.uid) :
    v.Proves setting users ↔
      setting.pbkdf2 v.password (.str salt) = setting.pbkdf2 password (.str salt) := by
  obtain ⟨digest, hmade, hhash, hsaltField, -⟩ := lookup_setWebPassword hset
  have hhash := truthyField_str setting.crypto hhash (hdigest password digest hmade).1
  have hsaltField := truthyField_str setting.crypto hsaltField hsalt
  have hhas : hasWebPassword setting.crypto (.dict fields') = .ok true := by
    rw [hasWebPassword, hhash, hsaltField]
    rfl
  have hverify : verifyWebPassword setting.crypto (.dict fields') v.password = .ok true ↔
      setting.pbkdf2 v.password (.str salt) = .ok digest := by
    have hcrypto : setting.crypto.pbkdf2 = setting.pbkdf2 := rfl
    simp only [verifyWebPassword, hhash, hsaltField, hcrypto]
    rw [bind_eq_ok]
    constructor
    · rintro ⟨candidate, hcandidate, h⟩
      rw [hcandidate, of_decide_eq_true (compareDigest_eq_ok.mp h).2.symm]
    · intro h
      have hascii := (hdigest v.password digest h).2
      exact ⟨digest, h, compareDigest_eq_ok.mpr ⟨⟨hascii, hascii⟩, (decide_eq_true rfl).symm⟩⟩
  have hload : loadUserConfig users v.uid = .ok (some (.dict fields')) := by
    rw [loadUserConfig_dict hstored, if_pos hdecodes]
  rw [hmade, ← hverify]
  constructor
  · rintro ⟨-, config, hconfig, -, h⟩
    obtain rfl := Option.some.inj (Except.ok.inj (hconfig.symm.trans hload))
    exact h
  · intro h
    exact ⟨hpositive, _, hload, hhas, h⟩

/-- A login obtains a secret from a row that is an object, whatever the object holds. -/
theorem exists_ensured (minted : UrlSafe) {users : Users} {userId : ℤ} {fields : List (Str × Config)}
    (hstored : users userId = some (some (.dict fields)))
    (hencodable : encodable (existingSecret (some (.dict fields))) = true) :
    ∃ secret users', ensureUserSessionSecret minted users userId = .ok (some secret, users') ∧
      secret ≠ [] ∧ encodable secret = true := by
  by_cases hexisting : existingSecret (some (.dict fields)) = []
  · exact ⟨_, _, ensure_of_blank minted hstored hexisting, minted.text_ne_nil, minted.encodable_text⟩
  · exact ⟨_, _, ensure_of_existing minted hstored hexisting, hexisting, hencodable⟩

/-- Once a password is set, a visit below the limit is let in exactly when its password has the digest of
that password. Only the row that the password is checked on has to decode: the secret is read from the
column as text. -/
theorem signedIn_iff_of_setWebPassword {s : Site setting} {salt password : Str}
    {fields fields' row : List (Str × Config)} {v : Visit}
    (hset : setWebPassword setting salt fields password = .ok fields') (hsalt : salt ≠ [])
    (hdigest : ∀ given digest, setting.pbkdf2 given (.str salt) = .ok digest →
      digest ≠ [] ∧ isAscii digest = true)
    (hstored : s.users v.uid = some (some (.dict fields'))) (hdecodes : fieldsDecode fields' = true)
    (hrow : v.meanwhile s.users v.uid = some (some (.dict row)))
    (hencodable : encodable (existingSecret (some (.dict row))) = true)
    (hpositive : 0 < v.uid) (hbelow : v.limited s.failures = false)
    (hclock : strInt (truncate v.tokenAt) ≠ none) :
    (∃ token, s.answer v = .ok (signedIn token)) ↔
      setting.pbkdf2 v.password (.str salt) = setting.pbkdf2 password (.str salt) := by
  rw [← proves_of_setWebPassword hset hsalt hdigest hstored hdecodes hpositive, ← accepted_iff]
  constructor
  · rintro ⟨token, h⟩
    exact (answer_eq_signedIn.mp h).2.1
  · intro haccepted
    obtain ⟨secret, users', hensure, hne, hencoded⟩ := exists_ensured v.secret hrow hencodable
    have huid : strInt v.uid = some (intText v.uid) := by
      cases hint : int (strip v.userId) with
      | none => exact absurd hpositive (by simp [Visit.uid, hint])
      | some z =>
        have hz : v.uid = z := by rw [Visit.uid, hint, Option.getD_some]
        rw [hz]
        exact strInt_of_int hint
    obtain ⟨clock, hclock⟩ := Option.ne_none_iff_exists'.mp hclock
    obtain ⟨token, hmake⟩ :=
      exists_makeSessionToken setting.env.digest v.nonce huid hclock hencoded
    exact ⟨token, answer_eq_signedIn.mpr ⟨hbelow, haccepted, secret, users', hensure, hne, hmake⟩⟩

/-- An object that holds `true` as its session secret. -/
def flaggedFields : List (Str × Config) := [(webSessionSecretKey, .bool true)]

/-- With the password `open` set in the seventh user's row, the visit is let in, though the secret is no
string. -/
theorem openVisit_signedIn : ∃ fields', setWebPassword openSetting (lit "A") flaggedFields (lit "open") =
    .ok fields' ∧
      ∃ token, (Site.fresh (Function.update openUsers 7 (some (some (.dict fields')))) :
        Site openSetting).answer openVisit = .ok (signedIn token) := by
  have hdigest : ∀ given digest, openSetting.pbkdf2 given (.str (lit "A")) = .ok digest →
      digest ≠ [] ∧ isAscii digest = true := by
    intro given digest h
    obtain rfl := Except.ok.inj h
    split_ifs <;> decide
  have hclock : strInt (truncate 0) ≠ none := by
    rw [truncate, if_pos le_rfl, Int.floor_zero]
    decide
  have hset : setWebPassword openSetting (lit "A") flaggedFields (lit "open") = .ok
    (flaggedFields ++ openFields) := rfl
  have hrow : Function.update openUsers 7 (some (some (.dict (flaggedFields ++ openFields)))) 7 =
      some (some (.dict (flaggedFields ++ openFields))) := Function.update_self ..
  exact ⟨_, hset, (signedIn_iff_of_setWebPassword hset (by decide) hdigest hrow rfl hrow (by decide)
    (by decide) rfl hclock).mpr rfl⟩

end Ghpulse.System
