import Ghpulse.Library.PyStr

/-!
# Session tokens

The wire format `user_id.issued_at.nonce.signature`, minting and verification. HMAC-SHA256 is an
arbitrary function of secret and payload with the shape of a hexadecimal digest; the clock is the
value of `time.time()`.

Reference: `backend/session.py`.
-/

open Python

namespace Ghpulse.Session

/-- `SESSION_COOKIE_MAX_AGE`. -/
def sessionCookieMaxAge : ℕ := 7 * 24 * 3600

/-- `GUEST_USER_ID`. -/
def guestUserId : ℤ := 0

/-- Whether a character is a lower-case hexadecimal digit. -/
def isHexDigit (c : CodePoint) : Bool :=
  decide (0x30 ≤ c.val ∧ c.val ≤ 0x39 ∨ 0x61 ≤ c.val ∧ c.val ≤ 0x66)

/-- The hexadecimal HMAC-SHA256 of two encodable texts. -/
structure Digest where
  /-- The digest of a payload under a secret. -/
  hexdigest : Str → Str → Str
  length_hexdigest : ∀ s p, (hexdigest s p).length = 64
  hex : ∀ s p, ∀ c ∈ hexdigest s p, isHexDigit c = true

/-- The characters of `secrets.token_urlsafe`: ASCII letters and digits, `-` and `_`. -/
def isUrlSafe (c : CodePoint) : Bool :=
  decide (0x41 ≤ c.val ∧ c.val ≤ 0x5a ∨ 0x61 ≤ c.val ∧ c.val ≤ 0x7a ∨
    0x30 ≤ c.val ∧ c.val ≤ 0x39 ∨ c.val = 0x2d ∨ c.val = 0x5f)

/-- A value of `secrets.token_urlsafe`. -/
structure UrlSafe where
  /-- The text of the token. -/
  text : Str
  text_ne_nil : text ≠ []
  urlSafe : ∀ c ∈ text, isUrlSafe c = true

/-- The four parts of a token, the first two as integers. -/
structure Parsed where
  userId : ℤ
  issuedAt : ℤ
  nonce : Str
  sig : Str
  deriving DecidableEq, Repr

/-- `parse_session_token`. -/
def parseSessionToken (token : Str) : Option Parsed :=
  match token.splitOn (cp '.') with
  | [rawUid, rawTs, nonce, sig] =>
    match int rawUid, int rawTs with
    | some userId, some issuedAt =>
      if nonce = [] ∨ sig = [] then none else some ⟨userId, issuedAt, nonce, sig⟩
    | _, _ => none
  | _ => none

/-- The payload `f"{user_id}.{issued_at}.{nonce}"`; an integer above the digit limit has no text. -/
def payloadOf (userId issuedAt : ℤ) (nonce : Str) : Except Error Str :=
  match strInt userId, strInt issuedAt with
  | some u, some t => .ok (u ++ cp '.' :: (t ++ cp '.' :: nonce))
  | _, _ => .error .valueError

/-- `hmac.new(secret.encode("utf-8"), payload.encode("utf-8"), sha256).hexdigest()`. -/
def hmacSha256 (d : Digest) (secret payload : Str) : Except Error Str :=
  if encodable secret ∧ encodable payload then .ok (d.hexdigest secret payload)
  else .error .unicodeEncodeError

/-- `hmac.compare_digest` of two `str`. -/
def compareDigest (a b : Str) : Except Error Bool :=
  if isAscii a ∧ isAscii b then .ok (decide (a = b)) else .error .typeError

/-- `make_session_token` at clock `now` with the nonce that `token_urlsafe(10)` returned. -/
def makeSessionToken (d : Digest) (now : ℚ) (nonce : UrlSafe) (userId : ℤ) (secret : Str) :
    Except Error Str := do
  let payload ← payloadOf userId (truncate now) nonce.text
  let sig ← hmacSha256 d secret payload
  return payload ++ cp '.' :: sig

/-- Whether a token issued at `issuedAt` is within its term. -/
def InTerm (now : ℚ) (issuedAt : ℤ) : Prop :=
  issuedAt ≤ truncate now + 60 ∧ truncate now - issuedAt ≤ sessionCookieMaxAge

instance (now : ℚ) (issuedAt : ℤ) : Decidable (InTerm now issuedAt) :=
  inferInstanceAs (Decidable (_ ∧ _))

/-- `verify_session_token` at clock `now`. -/
def verifySessionToken (d : Digest) (now : ℚ) (token secret : Str) : Except Error (Option ℤ) :=
  match parseSessionToken token with
  | none => .ok none
  | some parsed =>
    if parsed.issuedAt > truncate now + 60 then .ok none
    else if truncate now - parsed.issuedAt > sessionCookieMaxAge then .ok none
    else do
      let payload ← payloadOf parsed.userId parsed.issuedAt parsed.nonce
      let expected ← hmacSha256 d secret payload
      let same ← compareDigest expected parsed.sig
      return if same then some parsed.userId else none

/-! ## The parts of a token

None of the first three parts contains a dot, so a token is split where it was joined. A text that is read
as an integer need not be its canonical text: spaces, a sign, underscores and zeros are accepted, which is
why the payload is rebuilt and not taken from the token.
-/

/-- What a hexadecimal digit is and is not. -/
theorem of_isHexDigit {c : CodePoint} (h : isHexDigit c = true) : c.val < 0x80 ∧ c ≠ cp '.' := by
  rw [isHexDigit, decide_eq_true_iff] at h
  refine ⟨by omega, ?_⟩
  rintro rfl
  exact absurd h (by decide)

/-- What a character of a URL-safe token is and is not. -/
theorem of_isUrlSafe {c : CodePoint} (h : isUrlSafe c = true) :
    c.val < 0x80 ∧ c ≠ cp '.' ∧ isSpace c = false := by
  rw [isUrlSafe, decide_eq_true_iff] at h
  refine ⟨by omega, ?_, ?_⟩
  · rintro rfl
    exact absurd h (by decide)
  · have hnot : c.val ∉ spaces := by
      simp only [spaces, List.mem_cons, List.not_mem_nil, or_false]
      omega
    exact decide_eq_false hnot

/-- A digest is ASCII. -/
theorem Digest.isAscii_hexdigest (d : Digest) (s p : Str) : isAscii (d.hexdigest s p) = true := by
  rw [isAscii, List.all_eq_true]
  intro c hc
  exact decide_eq_true (of_isHexDigit (d.hex s p c hc)).1

/-- A digest is not empty. -/
theorem Digest.hexdigest_ne_nil (d : Digest) (s p : Str) : d.hexdigest s p ≠ [] := by
  intro h
  have hlen := d.length_hexdigest s p
  rw [h] at hlen
  exact absurd hlen (by decide)

/-- A nonce has no dot. -/
theorem UrlSafe.dot_notMem (n : UrlSafe) : cp '.' ∉ n.text := fun h =>
  (of_isUrlSafe (n.urlSafe _ h)).2.1 rfl

/-- A nonce can be encoded. -/
theorem UrlSafe.encodable_text (n : UrlSafe) : encodable n.text = true := by
  rw [encodable, List.all_eq_true]
  intro c hc
  have hlt := (of_isUrlSafe (n.urlSafe c hc)).1
  exact decide_eq_true (Or.inl (by omega))

/-- `strip` leaves a URL-safe token as it is. -/
theorem UrlSafe.strip_text (n : UrlSafe) : strip n.text = n.text :=
  trim_eq_self_of_forall fun c hc => (of_isUrlSafe (n.urlSafe c hc)).2.2

/-- Four parts without dots, joined by dots, are the parts of the token. -/
theorem splitOn_token {a b c d : Str} (ha : cp '.' ∉ a) (hb : cp '.' ∉ b) (hc : cp '.' ∉ c)
    (hd : cp '.' ∉ d) :
    (a ++ cp '.' :: (b ++ cp '.' :: (c ++ cp '.' :: d))).splitOn (cp '.') = [a, b, c, d] := by
  rw [List.splitOn_append_cons_self_of_not_mem ha, List.splitOn_append_cons_self_of_not_mem hb,
    List.splitOn_append_cons_self_of_not_mem hc, List.splitOn_eq_singleton hd]

/-- Every text that `parse_session_token` reads as an integer has a canonical decimal text. -/
theorem of_parseSessionToken {token : Str} {p : Parsed} (h : parseSessionToken token = some p) :
    p.nonce ≠ [] ∧ p.sig ≠ [] ∧
      strInt p.userId = some (intText p.userId) ∧ strInt p.issuedAt = some (intText p.issuedAt) := by
  unfold parseSessionToken at h
  split at h
  · rename_i rawUid rawTs nonce sig hsplit
    split at h
    · rename_i userId issuedAt huid hts
      rw [Option.ite_none_left_eq_some] at h
      obtain ⟨hne, h⟩ := h
      obtain rfl := Option.some.inj h
      rw [not_or] at hne
      exact ⟨hne.1, hne.2, strInt_of_int huid, strInt_of_int hts⟩
    · cases h
  · cases h

/-- When an f-string payload has a text, and which. -/
theorem payloadOf_eq_ok {u t : ℤ} {nonce p : Str} :
    payloadOf u t nonce = .ok p ↔ ∃ tu tt, strInt u = some tu ∧ strInt t = some tt ∧
      p = tu ++ cp '.' :: (tt ++ cp '.' :: nonce) := by
  unfold payloadOf
  cases strInt u with
  | none => simp
  | some tu =>
    cases strInt t with
    | none => simp
    | some tt => simp [eq_comm]

/-- A payload determines the user id, the issue time and the nonce it was built from. -/
theorem payloadOf_injective {u t u' t' : ℤ} {nonce nonce' p : Str} (h : payloadOf u t nonce = .ok p)
    (h' : payloadOf u' t' nonce' = .ok p) : u = u' ∧ t = t' ∧ nonce = nonce' := by
  obtain ⟨tu, tt, hu, ht, rfl⟩ := payloadOf_eq_ok.mp h
  obtain ⟨tu', tt', hu', ht', heq⟩ := payloadOf_eq_ok.mp h'
  obtain ⟨rfl, hrest⟩ :=
    append_cons_inj (dot_notMem_of_strInt hu) (dot_notMem_of_strInt hu') heq
  obtain ⟨rfl, hnonce⟩ :=
    append_cons_inj (dot_notMem_of_strInt ht) (dot_notMem_of_strInt ht') hrest
  exact ⟨strInt_injective hu hu', strInt_injective ht ht', hnonce⟩

/-! ## Minting and verifying

Verification is a sequence of calls that may raise, so the lemmas say when it returns a user, and leave
the rest to the gate.
-/

/-- A signature is the digest of a secret and a payload that can be encoded. -/
theorem hmacSha256_eq_ok {d : Digest} {secret payload sig : Str} :
    hmacSha256 d secret payload = .ok sig ↔
      (encodable secret = true ∧ encodable payload = true) ∧ sig = d.hexdigest secret payload := by
  unfold hmacSha256
  split_ifs with h
  · simp [h, eq_comm]
  · simp [h]

/-- What a minted token consists of. -/
theorem makeSessionToken_eq_ok {d : Digest} {now : ℚ} {nonce : UrlSafe} {userId : ℤ}
    {secret token : Str} :
    makeSessionToken d now nonce userId secret = .ok token ↔
      ∃ payload, payloadOf userId (truncate now) nonce.text = .ok payload ∧
        (encodable secret = true ∧ encodable payload = true) ∧
        token = payload ++ cp '.' :: d.hexdigest secret payload := by
  rw [makeSessionToken, bind_eq_ok]
  refine exists_congr fun payload => and_congr_right fun _ => ?_
  rw [bind_eq_ok]
  constructor
  · rintro ⟨sig, hsig, htoken⟩
    obtain ⟨henc, rfl⟩ := hmacSha256_eq_ok.mp hsig
    exact ⟨henc, (Except.ok.inj htoken).symm⟩
  · rintro ⟨henc, rfl⟩
    exact ⟨_, hmacSha256_eq_ok.mpr ⟨henc, rfl⟩, rfl⟩

/-- Reading a minted token gives back what it was minted from. -/
theorem parseSessionToken_minted (d : Digest) {issuedAt : ℤ} {nonce : UrlSafe} {userId : ℤ}
    (secret : Str) {payload : Str} (hp : payloadOf userId issuedAt nonce.text = .ok payload) :
    parseSessionToken (payload ++ cp '.' :: d.hexdigest secret payload) =
      some ⟨userId, issuedAt, nonce.text, d.hexdigest secret payload⟩ := by
  obtain ⟨tu, tt, hu, ht, hpayload⟩ := payloadOf_eq_ok.mp hp
  have hsig : cp '.' ∉ d.hexdigest secret payload := fun h => (of_isHexDigit (d.hex _ _ _ h)).2 rfl
  -- the token is split at the three dots that minting has put into it
  have hsplit : (payload ++ cp '.' :: d.hexdigest secret payload).splitOn (cp '.') =
      [tu, tt, nonce.text, d.hexdigest secret payload] := by
    have htoken : payload ++ cp '.' :: d.hexdigest secret payload = tu ++ cp '.' ::
        (tt ++ cp '.' :: (nonce.text ++ cp '.' :: d.hexdigest secret payload)) := by
      nth_rewrite 1 [hpayload]
      simp only [List.append_assoc, List.cons_append]
    rw [htoken]
    exact splitOn_token (dot_notMem_of_strInt hu) (dot_notMem_of_strInt ht) nonce.dot_notMem hsig
  rw [parseSessionToken, hsplit]
  simp only [int_of_strInt hu, int_of_strInt ht]
  rw [if_neg]
  exact not_or.mpr ⟨nonce.text_ne_nil, d.hexdigest_ne_nil _ _⟩

/-- `compare_digest` says whether two ASCII texts are equal. -/
theorem compareDigest_eq_ok {a b : Str} {same : Bool} :
    compareDigest a b = .ok same ↔
      (isAscii a = true ∧ isAscii b = true) ∧ same = decide (a = b) := by
  unfold compareDigest
  split_ifs with h
  · simp [h, eq_comm]
  · simp [h]

/-- Verification of a token that parses: out of its term it is refused, else its signature counts. -/
theorem verifySessionToken_of_parse {d : Digest} {now : ℚ} {token secret : Str} {p : Parsed}
    (h : parseSessionToken token = some p) :
    verifySessionToken d now token secret =
      if InTerm now p.issuedAt then do
        let payload ← payloadOf p.userId p.issuedAt p.nonce
        let expected ← hmacSha256 d secret payload
        let same ← compareDigest expected p.sig
        return if same then some p.userId else none
      else .ok none := by
  unfold verifySessionToken
  rw [h]
  by_cases hfuture : p.issuedAt > truncate now + 60
  · have hterm : ¬InTerm now p.issuedAt := fun h => absurd h.1 (by omega)
    simp only [if_pos hfuture, if_neg hterm]
  · by_cases hold : truncate now - p.issuedAt > sessionCookieMaxAge
    · have hterm : ¬InTerm now p.issuedAt := fun h => absurd h.2 (by omega)
      simp only [if_neg hfuture, if_pos hold, if_neg hterm]
    · have hterm : InTerm now p.issuedAt := ⟨by omega, by omega⟩
      simp only [if_neg hfuture, if_neg hold, if_pos hterm]

/-- When verification accepts a token, and for whom. -/
theorem verifySessionToken_eq_some {d : Digest} {now : ℚ} {token secret : Str} {u : ℤ} :
    verifySessionToken d now token secret = .ok (some u) ↔
      ∃ p payload, parseSessionToken token = some p ∧ InTerm now p.issuedAt ∧
        payloadOf p.userId p.issuedAt p.nonce = .ok payload ∧
        (encodable secret = true ∧ encodable payload = true) ∧
        p.sig = d.hexdigest secret payload ∧ u = p.userId := by
  constructor
  · intro h
    cases hparse : parseSessionToken token with
    | none => simp [verifySessionToken, hparse] at h
    | some p =>
      rw [verifySessionToken_of_parse hparse] at h
      split_ifs at h with hterm
      · obtain ⟨payload, hpayload, h⟩ := bind_eq_ok.mp h
        obtain ⟨expected, hexpected, h⟩ := bind_eq_ok.mp h
        obtain ⟨same, hsame, h⟩ := bind_eq_ok.mp h
        obtain ⟨henc, rfl⟩ := hmacSha256_eq_ok.mp hexpected
        obtain ⟨-, rfl⟩ := compareDigest_eq_ok.mp hsame
        have hres := Except.ok.inj h
        split_ifs at hres with hsig
        · exact ⟨p, payload, rfl, hterm, hpayload, henc, (of_decide_eq_true hsig).symm,
            (Option.some.inj hres).symm⟩
      · cases h
  · rintro ⟨p, payload, hparse, hterm, hpayload, henc, hsig, rfl⟩
    rw [verifySessionToken_of_parse hparse, if_pos hterm]
    have hascii := d.isAscii_hexdigest secret payload
    refine bind_eq_ok.mpr ⟨payload, hpayload, bind_eq_ok.mpr
      ⟨_, hmacSha256_eq_ok.mpr ⟨henc, rfl⟩, bind_eq_ok.mpr
        ⟨true, compareDigest_eq_ok.mpr ⟨⟨hascii, hsig ▸ hascii⟩, ?_⟩, rfl⟩⟩⟩
    rw [hsig, decide_eq_true rfl]

/-- A minted token verifies under its secret from the moment of issue to the end of its term. -/
theorem verifySessionToken_minted {d : Digest} {issue now : ℚ} {nonce : UrlSafe} {userId : ℤ}
    {secret token : Str} (hmake : makeSessionToken d issue nonce userId secret = .ok token)
    (hfrom : issue ≤ now) (huntil : now ≤ issue + sessionCookieMaxAge) :
    verifySessionToken d now token secret = .ok (some userId) := by
  obtain ⟨payload, hpayload, henc, rfl⟩ := makeSessionToken_eq_ok.mp hmake
  have hterm : InTerm now (truncate issue) := by
    have hlow := truncate_mono hfrom
    have hhigh := (truncate_mono huntil).trans (truncate_add_natCast_le issue sessionCookieMaxAge)
    exact ⟨by omega, by omega⟩
  exact verifySessionToken_eq_some.mpr
    ⟨_, payload, parseSessionToken_minted d secret hpayload, hterm, hpayload, henc, rfl, rfl⟩

/-- Texts around a dot can be encoded when both can. -/
theorem encodable_dotted {s t : Str} :
    encodable (s ++ cp '.' :: t) = true ↔ encodable s = true ∧ encodable t = true := by
  have hdot : (cp '.').val = 0x2e := rfl
  simp [encodable, List.all_append, hdot]

/-- The text of an integer can be encoded. -/
theorem encodable_intText (z : ℤ) : encodable (intText z) = true := by
  rw [encodable, List.all_eq_true]
  intro c hc
  rcases mem_intText hc with rfl | ⟨d, hd, rfl⟩
  · rfl
  · interval_cases d <;> rfl

/-- The payload of a URL-safe nonce can be encoded. -/
theorem encodable_payloadOf {u t : ℤ} {nonce : UrlSafe} {p : Str}
    (h : payloadOf u t nonce.text = .ok p) : encodable p = true := by
  have htext {z : ℤ} {s : Str} (hs : strInt z = some s) : encodable s = true := by
    simp only [strInt, Option.ite_none_right_eq_some, Option.some.injEq] at hs
    exact hs.2 ▸ encodable_intText z
  obtain ⟨tu, tt, hu, ht, rfl⟩ := payloadOf_eq_ok.mp h
  rw [encodable_dotted, encodable_dotted]
  exact ⟨htext hu, htext ht, nonce.encodable_text⟩

/-- Minting succeeds for every user id and clock that have a text and every encodable secret. -/
theorem exists_makeSessionToken (d : Digest) {now : ℚ} (nonce : UrlSafe) {userId : ℤ}
    {secret tu tt : Str} (hu : strInt userId = some tu) (ht : strInt (truncate now) = some tt)
    (hsecret : encodable secret = true) :
    ∃ token, makeSessionToken d now nonce userId secret = .ok token := by
  have hpayload : payloadOf userId (truncate now) nonce.text =
      .ok (tu ++ cp '.' :: (tt ++ cp '.' :: nonce.text)) := payloadOf_eq_ok.mpr ⟨tu, tt, hu, ht, rfl⟩
  exact ⟨_, makeSessionToken_eq_ok.mpr
    ⟨_, hpayload, ⟨hsecret, encodable_payloadOf hpayload⟩, rfl⟩⟩

end Ghpulse.Session
