import Ghpulse.Session.Agreement

/-!
# Sessions cannot be forged, retargeted or outlive their term

The history of a process is the list of tokens it has minted. `Unforged` idealises HMAC-SHA256 for one
presented token: if its signature is the digest that is compared with it, of the secret that is checked
and the payload that is rebuilt, then these were minted together. Nothing is assumed of other secrets and
payloads, which may share the digest, so `unforged_minted` holds of every minted token and any digest.
The signed payload is rebuilt from the integers of the token, so the argument rests on
`payloadOf_injective`: whatever spaces, signs or zeros a presented token carries, its payload names one
user, one issue time and one nonce.

Reference: `backend/session.py`.
-/

open Python

namespace Ghpulse.Session

/-- One call of `make_session_token` that returned a token. -/
structure Mint (d : Digest) where
  userId : ℤ
  secret : Str
  /-- `time.time()` at the call. -/
  clock : ℚ
  /-- What `token_urlsafe(10)` returned. -/
  nonce : UrlSafe
  token : Str
  minted : makeSessionToken d clock nonce userId secret = .ok token

/-- The issue time written into the token. -/
def Mint.issuedAt {d : Digest} (m : Mint d) : ℤ := truncate m.clock

/-- The secret in force for a user: the guest secret for the guest, the stored string of the user's own
row for everyone else. -/
def InForce (env : Env) (users : Users) (userId : ℤ) (secret : Str) : Prop :=
  if userId = guestUserId then secret = env.guestSecret.text
  else ∃ fields text, loadUserConfig users userId = .ok (some (.dict fields)) ∧
    fields.lookup webSessionSecretKey = some (.str text) ∧ secret = strip text ∧ secret ≠ []

/-- Every stored session secret is a string. -/
def SecretsAreStrings (users : Users) : Prop :=
  ∀ userId fields v, users userId = some (some (.dict fields)) →
    fields.lookup webSessionSecretKey = some v → ∃ text, v = .str text

/-- The secret that the tokens of a user are checked against: the guest secret for the guest, the text of
what the table holds for everyone else. -/
def Checks (env : Env) (users : Users) (userId : ℤ) (secret : Str) : Prop :=
  if userId = guestUserId then secret = env.guestSecret.text
  else checkedSecret env.py users userId = .ok (some secret)

/-- The signature of a token is the digest of the secret that is checked and of the payload that is rebuilt
from the token only if the two were minted together. -/
def Unforged (env : Env) (users : Users) (history : List (Mint env.digest)) (token : Str) : Prop :=
  ∀ p secret payload, parseSessionToken token = some p → Checks env users p.userId secret →
    payloadOf p.userId p.issuedAt p.nonce = .ok payload → p.sig = env.digest.hexdigest secret payload →
      ∃ m ∈ history, m.secret = secret ∧ payloadOf m.userId m.issuedAt m.nonce.text = .ok payload

/-! ## The secret that is checked

A guest is checked against a secret of the process and everyone else against the table. Only the text of
what is stored matters, so the lemmas do not ask that it be a string.
-/

/-- With strings in the table, the secret that is checked is the one in force. -/
theorem checks_iff_inForce {env : Env} {users : Users} {userId : ℤ} {secret : Str}
    (hstored : SecretsAreStrings users) :
    Checks env users userId secret ↔ InForce env users userId secret := by
  by_cases hguest : userId = guestUserId
  · rw [Checks, InForce, if_pos hguest, if_pos hguest]
  rw [Checks, InForce, if_neg hguest, if_neg hguest, checkedSecret_eq_ok]
  constructor
  · rintro ⟨fields, v, hload, hlookup, hsecret⟩
    obtain ⟨text, rfl⟩ := hstored userId fields v (of_loadUserConfig hload) hlookup
    exact ⟨fields, text, hload, hlookup, hsecret⟩
  · rintro ⟨fields, text, hload, hlookup, hsecret⟩
    exact ⟨fields, .str text, hload, hlookup, hsecret⟩

/-- One secret is checked for a user. -/
theorem Checks.unique {env : Env} {users : Users} {userId : ℤ} {secret secret' : Str}
    (h : Checks env users userId secret) (h' : Checks env users userId secret') : secret = secret' := by
  unfold Checks at h h'
  split_ifs at h h'
  · exact h.trans h'.symm
  · exact Option.some.inj (Except.ok.inj (h.symm.trans h'))

/-- Resolving a token that parses: it is verified under the secret that is checked for its user. -/
theorem resolve_of_parse (env : Env) (users : Users) (now : ℚ) {token : Str} {p : Parsed}
    (h : parseSessionToken token = some p) {u : ℤ} :
    resolveSessionUserId env users now token = .ok (some u) ↔
      ∃ secret, verifySessionToken env.digest now token secret = .ok (some u) ∧
        Checks env users p.userId secret := by
  unfold resolveSessionUserId Checks
  simp only [h]
  by_cases hguest : p.userId = guestUserId
  · simp only [if_pos hguest]
    constructor
    · intro hv
      exact ⟨_, hv, rfl⟩
    · rintro ⟨secret, hv, rfl⟩
      exact hv
  · simp only [if_neg hguest]
    rw [bind_eq_ok]
    constructor
    · rintro ⟨secret, hsecret, hv⟩
      cases secret with
      | none => cases hv
      | some secret => exact ⟨secret, hv, hsecret⟩
    · rintro ⟨secret, hv, hsecret⟩
      exact ⟨some secret, hsecret, hv⟩

/-- A token resolves to a user when it verifies for that user under the secret that is checked. -/
theorem resolve_eq_some {env : Env} {users : Users} {now : ℚ} {token : Str} {u : ℤ} :
    resolveSessionUserId env users now token = .ok (some u) ↔
      ∃ secret, verifySessionToken env.digest now token secret = .ok (some u) ∧
        Checks env users u secret := by
  cases hparse : parseSessionToken token with
  | none =>
    constructor
    · intro h
      simp [resolveSessionUserId, hparse] at h
    · rintro ⟨secret, hv, -⟩
      simp [verifySessionToken, hparse] at hv
  | some p =>
    rw [resolve_of_parse env users now hparse]
    refine exists_congr fun secret => and_congr_right fun hv => ?_
    obtain ⟨p', _, hparse', -, -, -, -, rfl⟩ := verifySessionToken_eq_some.mp hv
    obtain rfl : p = p' := Option.some.inj (hparse.symm.trans hparse')
    rfl

/-- Tokens of which the same is read resolve alike. -/
theorem resolve_congr {env : Env} {users : Users} {now : ℚ} {token token' : Str}
    (h : parseSessionToken token = parseSessionToken token') :
    resolveSessionUserId env users now token = resolveSessionUserId env users now token' := by
  unfold resolveSessionUserId verifySessionToken
  rw [h]

/-- Whoever resolves a token has a mint of it: for the same user, at the same time and with the same nonce,
under the secret that is checked, and within its term. -/
theorem exists_mint_of_resolve {env : Env} {users : Users} {history : List (Mint env.digest)} {now : ℚ}
    {token : Str} {u : ℤ} (hunforged : Unforged env users history token)
    (h : resolveSessionUserId env users now token = .ok (some u)) :
    ∃ m ∈ history, ∃ p, parseSessionToken token = some p ∧ m.userId = u ∧ m.issuedAt = p.issuedAt ∧
      m.nonce.text = p.nonce ∧ Checks env users u m.secret ∧ InTerm now m.issuedAt := by
  obtain ⟨secret, hv, hchecks⟩ := resolve_eq_some.mp h
  obtain ⟨p, payload, hparse, hterm, hpayload, -, hsig, rfl⟩ := verifySessionToken_eq_some.mp hv
  obtain ⟨m, hm, rfl, hmint⟩ := hunforged p secret payload hparse hchecks hpayload hsig
  obtain ⟨huser, hissued, hnonce⟩ := payloadOf_injective hmint hpayload
  exact ⟨m, hm, p, hparse, huser, hissued, hnonce, hchecks, hissued ▸ hterm⟩

/-- Whatever the digest is, nothing of which a minted token is read is forged. -/
theorem unforged_minted {env : Env} {users : Users} {history : List (Mint env.digest)} {m : Mint env.digest}
    (hm : m ∈ history) (hchecks : Checks env users m.userId m.secret) {token : Str}
    (htoken : parseSessionToken token = parseSessionToken m.token) :
    Unforged env users history token := by
  intro p secret payload hparse hsecret hpayload _
  obtain ⟨minted, hmint, -, hmade⟩ := makeSessionToken_eq_ok.mp m.minted
  rw [htoken, hmade, parseSessionToken_minted env.digest m.secret hmint] at hparse
  obtain rfl := Option.some.inj hparse
  exact ⟨m, hm, hchecks.unique hsecret, hpayload⟩

/-! ## Sessions

Two halves: whoever is recognised was minted for, which rests on the digest, and whoever was minted for is
recognised, which does not.
-/

/-- Every session that resolves was minted for exactly that user, with the same issue time and nonce,
under the secret now in force, and is within its term; and every minted token whose secret is still in
force resolves to its user from issue to the end of the term, whatever the digest is. -/
theorem resolve_of_history (env : Env) (users : Users) (history : List (Mint env.digest))
    (now : ℚ) (hstored : SecretsAreStrings users) :
    (∀ token, Unforged env users history token →
      ∀ u, resolveSessionUserId env users now token = .ok (some u) →
        ∃ m ∈ history, ∃ p, parseSessionToken token = some p ∧ m.userId = u ∧
          m.issuedAt = p.issuedAt ∧ m.nonce.text = p.nonce ∧ InForce env users u m.secret ∧
          m.issuedAt ≤ truncate now + 60 ∧ truncate now - m.issuedAt ≤ sessionCookieMaxAge) ∧
    (∀ m ∈ history, InForce env users m.userId m.secret →
      m.clock ≤ now → now ≤ m.clock + sessionCookieMaxAge →
        resolveSessionUserId env users now m.token = .ok (some m.userId)) := by
  constructor
  · intro token hunforged u h
    obtain ⟨m, hm, p, hparse, huser, hissued, hnonce, hchecks, hterm⟩ := exists_mint_of_resolve hunforged h
    exact ⟨m, hm, p, hparse, huser, hissued, hnonce, (checks_iff_inForce hstored).mp hchecks, hterm.1,
      hterm.2⟩
  · intro m _ hforce hfrom huntil
    exact resolve_eq_some.mpr ⟨m.secret, verifySessionToken_minted m.minted hfrom huntil,
      (checks_iff_inForce hstored).mpr hforce⟩

/-! ## A process

A concrete digest with many collisions, under which the idealisation still holds of the tokens that are
presented.
-/

/-- The digit of a number below sixteen, and `f` for any other. -/
def hexDigit (n : ℕ) : CodePoint :=
  ((lit "0123456789abcdef")[n]?).getD (cp 'f')

/-- A digest that collides: the sum of the code points, so that, as for HMAC, zeros at the end of a secret do
not change it, and different payloads share it. -/
def sumDigest : Digest where
  hexdigest secret payload :=
    List.replicate 64 (hexDigit (((secret ++ payload).map fun c => c.val).sum % 16))
  length_hexdigest _ _ := List.length_replicate
  hex secret payload c hc := by
    rw [List.eq_of_mem_replicate hc]
    have hdigit : ∀ n < 16, isHexDigit (hexDigit n) = true := by decide
    exact hdigit _ (Nat.mod_lt _ (by decide))

/-- A process whose guest secret is `A`. -/
def guestEnv : Env := ⟨sumDigest, default, plainRepr⟩

/-- A table in which the seventh user has the secret `B`. -/
def secretUsers : Users := fun userId =>
  if userId = 7 then some (some (.dict [(webSessionSecretKey, .str (lit "B"))])) else none

/-- The guest token minted at clock zero with the nonce `A`. -/
def guestMint : Mint guestEnv.digest where
  userId := guestUserId
  secret := lit "A"
  clock := 0
  nonce := default
  token := lit "0.0.A" ++ cp '.' :: guestEnv.digest.hexdigest (lit "A") (lit "0.0.A")
  minted := by
    have hclock : truncate 0 = 0 := by rw [truncate, if_pos le_rfl, Int.floor_zero]
    refine makeSessionToken_eq_ok.mpr ⟨lit "0.0.A", ?_, ⟨rfl, rfl⟩, rfl⟩
    rw [hclock]
    rfl

/-- The token of the seventh user minted at clock zero with the nonce `A`. -/
def userMint : Mint guestEnv.digest where
  userId := 7
  secret := lit "B"
  clock := 0
  nonce := default
  token := lit "7.0.A" ++ cp '.' :: guestEnv.digest.hexdigest (lit "B") (lit "7.0.A")
  minted := by
    have hclock : truncate 0 = 0 := by rw [truncate, if_pos le_rfl, Int.floor_zero]
    refine makeSessionToken_eq_ok.mpr ⟨lit "7.0.A", ?_, ⟨rfl, rfl⟩, rfl⟩
    rw [hclock]
    rfl

/-- The token of the seventh user with a space, a sign and a zero. -/
def editedToken : Str :=
  lit " +7.00.A" ++ cp '.' :: guestEnv.digest.hexdigest (lit "B") (lit "7.0.A")

theorem secretUsers_strings : SecretsAreStrings secretUsers := by
  intro userId fields v hstored hlookup
  unfold secretUsers at hstored
  split_ifs at hstored
  cases hstored
  rw [List.lookup_cons_self] at hlookup
  exact ⟨_, (Option.some.inj hlookup).symm⟩

/-- A minute later both tokens resolve to their users, the edited one does too, and only because the seventh
user's token was minted under the secret in force. -/
theorem guestMint_resolves :
    resolveSessionUserId guestEnv secretUsers 60 guestMint.token = .ok (some guestUserId) ∧
      resolveSessionUserId guestEnv secretUsers 60 userMint.token = .ok (some 7) ∧
      resolveSessionUserId guestEnv secretUsers 60 editedToken = .ok (some 7) ∧
      ∃ m ∈ [guestMint, userMint], m.userId = 7 ∧ InForce guestEnv secretUsers 7 m.secret := by
  have hboth := resolve_of_history guestEnv secretUsers [guestMint, userMint] 60 secretUsers_strings
  have hguest := hboth.2 guestMint (List.mem_cons_self ..) rfl (by norm_num [guestMint])
    (by norm_num [guestMint, sessionCookieMaxAge])
  have hforce : InForce guestEnv secretUsers userMint.userId userMint.secret :=
    ⟨_, lit "B", rfl, rfl, rfl, by decide⟩
  have huser := hboth.2 userMint (by simp) hforce (by norm_num [userMint])
    (by norm_num [userMint, sessionCookieMaxAge])
  have hread : parseSessionToken editedToken = parseSessionToken userMint.token := by decide
  have hedited : resolveSessionUserId guestEnv secretUsers 60 editedToken = .ok (some 7) :=
    (resolve_congr hread).trans huser
  have hunforged : Unforged guestEnv secretUsers [guestMint, userMint] editedToken :=
    unforged_minted (m := userMint) (by simp) ((checks_iff_inForce secretUsers_strings).mpr hforce) hread
  obtain ⟨m, hm, -, -, hsame, -, -, hforce', -⟩ := hboth.1 editedToken hunforged 7 hedited
  exact ⟨hguest, huser, hedited, m, hm, hsame, hforce'⟩

end Ghpulse.Session
