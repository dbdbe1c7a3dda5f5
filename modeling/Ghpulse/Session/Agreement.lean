import Ghpulse.Session.Secret

/-!
# Login and verification read the same secret

Login reads the secret through `config->>key`, verification through `str` of the decoded value. The
two agree on a missing key and on every string. They differ on a JSON null, which login replaces but
verification reads as the text `None`, and on every value that Python and PostgreSQL write differently.

References: `backend/session.py` (`ensure_user_session_secret`, `resolve_session_user_id`).
-/

open Python

namespace Ghpulse.Session

variable {py : PyRepr} {users : Users} {userId : ℤ} {fields : List (Str × Config)}

/-! ## Setting a field

An object of type `jsonb` has no name twice, so it is enough that the first field of a name is replaced.
-/

theorem lookup_setField (key : Str) (v : Config) (fields : List (Str × Config)) :
    (setField key v fields).lookup key = some v := by
  induction fields with
  | nil => simp [setField]
  | cons f fs ih =>
    obtain ⟨k, w⟩ := f
    unfold setField
    by_cases hk : k = key
    · simp [hk]
    · rw [if_neg hk, List.lookup_cons, beq_eq_false_iff_ne.mpr (Ne.symm hk)]
      exact ih

/-- Storing a string keeps a decodable object decodable, and makes none so but for the old value. -/
theorem fieldsDecode_setField {key s : Str}
    (hold : ∀ v, fields.lookup key = some v → decodes v = true) :
    fieldsDecode (setField key (.str s) fields) = fieldsDecode fields := by
  induction fields with
  | nil => rfl
  | cons f fs ih =>
    obtain ⟨k, w⟩ := f
    unfold setField
    by_cases hk : k = key
    · have hw : decodes w = true := hold w (by simp [hk])
      rw [if_pos hk, fieldsDecode, fieldsDecode, hw]
      rfl
    · rw [if_neg hk, fieldsDecode, fieldsDecode]
      rw [ih fun v hv => hold v (by rwa [List.lookup_cons, beq_eq_false_iff_ne.mpr (Ne.symm hk)])]

/-! ## The two readings of one object

For an object of which the secret is looked up, each side is one line. The lemmas after them say what a
whole call of login or of verification makes of the line.
-/

/-- The secret that verification reads from an object. -/
def pySecret (py : PyRepr) (fields : List (Str × Config)) : Str :=
  match fields.lookup webSessionSecretKey with
  | none => strip []
  | some v => strip (Json.text (pyStyle py) v)

/-- Login reads the text of the value, with nothing for a missing key and for a null. -/
theorem existingSecret_dict (fields : List (Str × Config)) :
    existingSecret (some (.dict fields)) =
      match fields.lookup webSessionSecretKey with
      | none | some .null => []
      | some v => strip (Json.text pgStyle v) := by
  simp only [existingSecret, textAt]
  cases fields.lookup webSessionSecretKey with
  | none => rfl
  | some v => cases v <;> rfl

theorem configSecret_dict (py : PyRepr) (fields : List (Str × Config)) :
    configSecret py (.dict fields) = .ok (pySecret py fields) := by
  simp only [configSecret, pySecret]
  cases fields.lookup webSessionSecretKey <;> rfl

theorem loadUserConfig_dict (h : users userId = some (some (.dict fields))) :
    loadUserConfig users userId =
      if fieldsDecode fields then .ok (some (.dict fields)) else .error .valueError := by
  simp only [loadUserConfig, h, decodes]
  rfl

/-- Verification decodes the column and takes the secret unless it is blank. -/
theorem checkedSecret_dict (h : users userId = some (some (.dict fields))) :
    checkedSecret py users userId =
      if fieldsDecode fields then
        .ok (if pySecret py fields = [] then none else some (pySecret py fields))
      else .error .valueError := by
  rw [checkedSecret, loadUserConfig_dict h]
  by_cases hd : fieldsDecode fields = true
  · rw [if_pos hd, if_pos hd]
    show (configSecret py (.dict fields) >>= fun secret => _) = _
    rw [configSecret_dict]
    rfl
  · rw [if_neg hd, if_neg hd]
    rfl

/-- When verification has a secret to check against, and which. -/
theorem checkedSecret_eq_some {secret : Str} (h : users userId = some (some (.dict fields))) :
    checkedSecret py users userId = .ok (some secret) ↔
      fieldsDecode fields = true ∧ pySecret py fields ≠ [] ∧ secret = pySecret py fields := by
  rw [checkedSecret_dict h]
  by_cases hd : fieldsDecode fields = true
  · by_cases hs : pySecret py fields = []
    · simp [hd, hs]
    · simp [hd, hs, eq_comm]
  · simp [hd]

/-- A config that could be loaded was stored. -/
theorem of_loadUserConfig {config : Config}
    (h : loadUserConfig users userId = .ok (some config)) : users userId = some (some config) := by
  unfold loadUserConfig at h
  split at h
  · cases h
  · cases h
  · rename_i stored hrow
    split_ifs at h
    split at h
    · cases h
    · rw [hrow, Option.some.inj (Except.ok.inj h)]

/-- Verification has a secret exactly when the row holds an object with a secret that is not blank. -/
theorem checkedSecret_eq_ok {secret : Str} :
    checkedSecret py users userId = .ok (some secret) ↔
      ∃ fields v, loadUserConfig users userId = .ok (some (.dict fields)) ∧
        fields.lookup webSessionSecretKey = some v ∧ secret = strip (Json.text (pyStyle py) v) ∧
        secret ≠ [] := by
  rw [checkedSecret, bind_eq_ok]
  constructor
  -- a blank secret is dropped, and only an object has one
  · rintro ⟨config, hload, h⟩
    cases config with
    | none => cases h
    | some config =>
      obtain ⟨s, hs, h⟩ := bind_eq_ok.mp h
      have hsome := Except.ok.inj h
      split_ifs at hsome with hne
      obtain rfl := Option.some.inj hsome
      cases config with
      | dict fields =>
        rw [configSecret_dict, pySecret] at hs
        cases hlookup : fields.lookup webSessionSecretKey with
        | none =>
          rw [hlookup] at hs
          exact absurd (Except.ok.inj hs).symm hne
        | some v =>
          rw [hlookup] at hs
          exact ⟨fields, v, hload, hlookup, (Except.ok.inj hs).symm, hne⟩
      | _ => cases hs
  · rintro ⟨fields, v, hload, hlookup, rfl, hne⟩
    refine ⟨_, hload, bind_eq_ok.mpr ⟨_, configSecret_dict py fields, ?_⟩⟩
    rw [pySecret, hlookup]
    exact congrArg Except.ok (if_neg hne)

/-- Login returns an existing secret and leaves the table alone. -/
theorem ensure_of_existing (minted : UrlSafe) (h : users userId = some (some (.dict fields)))
    (hexisting : existingSecret (some (.dict fields)) ≠ []) :
    ensureUserSessionSecret minted users userId =
      .ok (some (existingSecret (some (.dict fields))), users) := by
  unfold ensureUserSessionSecret
  simp only [h]
  rw [if_pos hexisting]

/-- Login stores a fresh secret where there is none. -/
theorem ensure_of_blank (minted : UrlSafe) (h : users userId = some (some (.dict fields)))
    (hblank : existingSecret (some (.dict fields)) = []) :
    ensureUserSessionSecret minted users userId =
      .ok (some minted.text, Function.update users userId
        (some (some (.dict (setField webSessionSecretKey (.str minted.text) fields))))) := by
  have hreturned : textAt webSessionSecretKey
      (some (.dict (setField webSessionSecretKey (.str minted.text) fields))) =
        some minted.text := by
    simp only [textAt, lookup_setField]
    rfl
  unfold ensureUserSessionSecret
  simp only [h]
  rw [if_neg (by simpa using hblank)]
  show Except.ok (some (Option.getD (textAt _ _) _), _) = _
  rw [hreturned]
  rfl

/-- A token of a user is verified under the secret read from the table. -/
theorem resolve_of_checkedSecret (env : Env) (now : ℚ) {token : Str} {p : Parsed}
    {secret : Option Str} (hparse : parseSessionToken token = some p)
    (hne : p.userId ≠ guestUserId) :
    checkedSecret env.py users p.userId = .ok secret →
      resolveSessionUserId env users now token =
        match secret with
        | none => .ok none
        | some secret => verifySessionToken env.digest now token secret := by
  intro hsecret
  unfold resolveSessionUserId
  simp only [hparse]
  rw [if_neg hne, hsecret]
  cases secret <;> rfl

/-- A token minted under the secret in the table resolves to its user during its term. -/
theorem resolve_minted {env : Env} {issue now : ℚ} {nonce : UrlSafe} {token secret : Str}
    (hne : userId ≠ guestUserId) (hsecret : checkedSecret env.py users userId = .ok (some secret))
    (hmake : makeSessionToken env.digest issue nonce userId secret = .ok token)
    (hfrom : issue ≤ now) (huntil : now ≤ issue + sessionCookieMaxAge) :
    resolveSessionUserId env users now token = .ok (some userId) := by
  obtain ⟨payload, hpayload, -, htoken⟩ := makeSessionToken_eq_ok.mp hmake
  have hparse := parseSessionToken_minted env.digest secret hpayload
  rw [← htoken] at hparse
  rw [resolve_of_checkedSecret env now hparse hne hsecret]
  exact verifySessionToken_minted hmake hfrom huntil

theorem decodes_of_lookup {v : Config} (hd : fieldsDecode fields = true) {key : Str}
    (h : fields.lookup key = some v) : decodes v = true := by
  induction fields with
  | nil => cases h
  | cons f fs ih =>
    obtain ⟨k, w⟩ := f
    rw [fieldsDecode, Bool.and_eq_true] at hd
    rw [List.lookup_cons] at h
    by_cases hk : key = k
    · rw [beq_iff_eq.mpr hk] at h
      exact Option.some.inj h ▸ hd.1
    · rw [beq_eq_false_iff_ne.mpr hk] at h
      exact ih hd.2 h

/-! ## When the two readings agree

The condition is about the object alone. That it is necessary is shown by the values that break it: an
object that cannot be decoded raises on the side of verification, a null is forgeable, and any other value
that is written in two ways is two secrets.
-/

/-- Login and verification use one secret for the row of `userId` with the object `fields`. Whatever
the digest, the guest secret, the fresh secret and the rest of the table are, login returns a secret
that is exactly the one verification checks, so its tokens resolve during their term; and where login
finds no secret, verification rejects every token of the user. -/
def LoginMatchesVerification (py : PyRepr) (userId : ℤ) (fields : List (Str × Config)) : Prop :=
  ∀ (digest : Digest) (guestSecret minted : UrlSafe) (users : Users),
    users userId = some (some (.dict fields)) →
      (∃ secret users', ensureUserSessionSecret minted users userId = .ok (some secret, users') ∧
        checkedSecret py users' userId = .ok (some secret) ∧
        ∀ issue now nonce token, makeSessionToken digest issue nonce userId secret = .ok token →
          issue ≤ now → now ≤ issue + sessionCookieMaxAge →
            resolveSessionUserId ⟨digest, guestSecret, py⟩ users' now token = .ok (some userId)) ∧
      (existingSecret (some (.dict fields)) = [] →
        ∀ now token p, parseSessionToken token = some p → p.userId = userId →
          resolveSessionUserId ⟨digest, guestSecret, py⟩ users now token = .ok none)

/-- The object can be decoded, and its session secret is missing, is a string, or is a value other
than null that PostgreSQL and Python write alike. -/
def SecretReadable (py : PyRepr) (fields : List (Str × Config)) : Prop :=
  fieldsDecode fields = true ∧ ∀ v, fields.lookup webSessionSecretKey = some v →
    (∃ s, v = .str s) ∨ ((v ≠ .null) ∧ Json.sameText pgStyle (pyStyle py) v = true)

/-- The text of a value that is neither a string nor null is the secret login returns. -/
theorem existingSecret_of_lookup {v : Config}
    (h : fields.lookup webSessionSecretKey = some v) (hstr : ∀ s, v ≠ .str s) (hnull : v ≠ .null) :
    existingSecret (some (.dict fields)) = Json.text pgStyle v ∧ Json.text pgStyle v ≠ [] := by
  have hstrip := Json.strip_text pgStyle hstr
  refine ⟨?_, hstrip.2⟩
  rw [existingSecret_dict, h]
  cases v with
  | null => exact absurd rfl hnull
  | _ => exact hstrip.1

/-- `text` of a value that is no string is its rendering. -/
theorem text_eq_render {st : Json.Style Decimal} {v : Config} (hstr : ∀ s, v ≠ .str s) :
    Json.text st v = Json.render st v := by
  cases v with
  | str s => exact absurd rfl (hstr s)
  | _ => rfl

/-- Of a readable object both sides read the same text. -/
theorem existingSecret_eq_pySecret (h : SecretReadable py fields) :
    existingSecret (some (.dict fields)) = pySecret py fields := by
  rw [existingSecret_dict, pySecret]
  cases hlookup : fields.lookup webSessionSecretKey with
  | none => rfl
  | some v =>
    rcases h.2 v hlookup with ⟨s, rfl⟩ | ⟨hnull, hsame⟩
    · rfl
    · cases v with
      | null => exact absurd rfl hnull
      | str s => rfl
      | _ => exact congrArg strip (Json.render_of_sameText hsame)

/-- On a readable object login and verification match. -/
theorem loginMatchesVerification_of_readable (hne : userId ≠ guestUserId)
    (h : SecretReadable py fields) : LoginMatchesVerification py userId fields := by
  intro digest guestSecret minted users hrow
  have hagree := existingSecret_eq_pySecret h
  constructor
  -- login mints a secret where it finds none, and verification then reads the minted one
  · by_cases hblank : existingSecret (some (.dict fields)) = []
    · have hensure := ensure_of_blank minted hrow hblank
      have hrow' := Function.update_self userId
        (some (some (Json.dict (setField webSessionSecretKey (.str minted.text) fields)))) users
      have hsecret : pySecret py (setField webSessionSecretKey (.str minted.text) fields) =
          minted.text := by
        simp only [pySecret, lookup_setField]
        exact minted.strip_text
      have hold : ∀ v, fields.lookup webSessionSecretKey = some v → decodes v = true :=
        fun v hv => decodes_of_lookup h.1 hv
      have hd := fieldsDecode_setField (s := minted.text) hold
      have hchecked' := (checkedSecret_eq_some hrow').mpr
        ⟨hd.trans h.1, by rw [hsecret]; exact minted.text_ne_nil, hsecret.symm⟩
      exact ⟨_, _, hensure, hchecked', fun issue now nonce token hmake hfrom huntil =>
        resolve_minted hne hchecked' hmake hfrom huntil⟩
    · have hensure := ensure_of_existing minted hrow hblank
      have hchecked := (checkedSecret_eq_some hrow).mpr ⟨h.1, hagree ▸ hblank, hagree⟩
      exact ⟨_, _, hensure, hchecked, fun issue now nonce token hmake hfrom huntil =>
        resolve_minted hne hchecked hmake hfrom huntil⟩
  · rintro hblank now token p hparse rfl
    have hchecked : checkedSecret py users p.userId = .ok none := by
      rw [checkedSecret_dict hrow, if_pos h.1, if_pos (hagree ▸ hblank)]
    have hnone := resolve_of_checkedSecret ⟨digest, guestSecret, py⟩ now hparse hne hchecked
    exact hnone

/-- A JSON null leaves the text `None` as the secret, so anyone can make a token that is accepted. -/
theorem nullSecret_forgeable {env : Env} {text : Str} (hne : userId ≠ guestUserId)
    (htext : strInt userId = some text) (hrow : users userId = some (some (.dict fields)))
    (hd : fieldsDecode fields = true) (hnull : fields.lookup webSessionSecretKey = some .null) :
    ∃ token p, parseSessionToken token = some p ∧ p.userId = userId ∧
      resolveSessionUserId env users 0 token = .ok (some userId) := by
  have hclock : strInt (truncate 0) = some (intText 0) := by
    rw [truncate, if_pos le_rfl, Int.floor_zero]
    rfl
  have hsecret : checkedSecret env.py users userId = .ok (some (lit "None")) := by
    rw [checkedSecret_dict hrow, if_pos hd, pySecret, hnull]
    rfl
  obtain ⟨token, hmake⟩ := exists_makeSessionToken env.digest env.guestSecret htext hclock
    (rfl : encodable (lit "None") = true)
  obtain ⟨payload, hpayload, -, htoken⟩ := makeSessionToken_eq_ok.mp hmake
  have hparse := parseSessionToken_minted env.digest (lit "None") hpayload
  rw [← htoken] at hparse
  have huntil : (0 : ℚ) ≤ 0 + sessionCookieMaxAge := by
    rw [zero_add]
    exact Nat.cast_nonneg _
  exact ⟨token, _, hparse, rfl, resolve_minted hne hsecret hmake le_rfl huntil⟩

/-- Digests exist: one that ignores its arguments. -/
instance : Inhabited Digest where
  default :=
    { hexdigest := fun _ _ => List.replicate 64 (cp '0')
      length_hexdigest := fun _ _ => List.length_replicate
      hex := fun _ _ c hc => by
        rw [List.eq_of_mem_replicate hc]
        rfl }

/-- URL-safe tokens exist. -/
instance : Inhabited UrlSafe where
  default :=
    { text := [cp 'A']
      text_ne_nil := List.cons_ne_nil _ _
      urlSafe := fun c hc => by
        rw [List.mem_singleton.mp hc]
        rfl }

/-- Where login and verification match, the object is readable. -/
theorem readable_of_loginMatchesVerification {text : Str} (hne : userId ≠ guestUserId)
    (htext : strInt userId = some text) (h : LoginMatchesVerification py userId fields) :
    SecretReadable py fields := by
  let users : Users := fun _ => some (some (.dict fields))
  obtain ⟨⟨secret, users', hensure, hchecked, -⟩, hreject⟩ := h default default default users rfl
  by_cases hblank : existingSecret (some (.dict fields)) = []
  · -- login replaced the secret: what is left to read is a missing key or a blank string
    have hvalue : ∀ v, fields.lookup webSessionSecretKey = some v →
        v = .null ∨ ∃ s, v = .str s := by
      intro v hv
      by_contra hnot
      rw [not_or, not_exists] at hnot
      have hexisting := existingSecret_of_lookup hv hnot.2 hnot.1
      exact hexisting.2 (hexisting.1.symm.trans hblank)
    have hold : ∀ v, fields.lookup webSessionSecretKey = some v → decodes v = true := by
      intro v hv
      rcases hvalue v hv with rfl | ⟨s, rfl⟩ <;> rfl
    have hd : fieldsDecode fields = true := by
      rw [ensure_of_blank default rfl hblank] at hensure
      cases hensure
      have hd := ((checkedSecret_eq_some (Function.update_self ..)).mp hchecked).1
      rwa [fieldsDecode_setField hold] at hd
    refine ⟨hd, fun v hv => ?_⟩
    rcases hvalue v hv with rfl | hstr
    · obtain ⟨token, p, hparse, hp, hres⟩ := 
        @nullSecret_forgeable users userId _ ⟨default, default, py⟩ _ hne htext rfl hd hv
      rw [hreject hblank 0 token p hparse hp] at hres
      cases hres
    · exact Or.inl hstr
  · -- login found a secret: verification must read the very same text
    rw [ensure_of_existing default rfl hblank] at hensure
    cases hensure
    obtain ⟨hd, -, hsecret⟩ := (checkedSecret_eq_some rfl).mp hchecked
    refine ⟨hd, fun v hv => ?_⟩
    by_cases hstr : ∃ s, v = .str s
    · exact Or.inl hstr
    · rw [not_exists] at hstr
      have hnull : v ≠ .null := by
        rintro rfl
        rw [existingSecret_dict, hv] at hblank
        exact hblank rfl
      have hpy : pySecret py fields = Json.text (pyStyle py) v := by
        simp only [pySecret, hv]
        exact (Json.strip_text (pyStyle py) hstr).1
      have heq : Json.text pgStyle v = Json.text (pyStyle py) v := by
        rw [← (existingSecret_of_lookup hv hstr hnull).1, ← hpy]
        exact hsecret
      rw [text_eq_render hstr, text_eq_render hstr] at heq
      exact Or.inr ⟨hnull, (Json.render_eq_render_iff
        fun s r r' _ _ hrr => quote_cut py.printable hrr).mp heq⟩

/-- Login and verification use the same secret for a row exactly when its object is readable. -/
theorem loginMatchesVerification_iff {text : Str} (hne : userId ≠ guestUserId)
    (htext : strInt userId = some text) :
    LoginMatchesVerification py userId fields ↔ SecretReadable py fields :=
  ⟨readable_of_loginMatchesVerification hne htext, loginMatchesVerification_of_readable hne⟩

/-- A plain instance: every character printable, floats written as PostgreSQL writes them. -/
def plainRepr : PyRepr where
  printable := fun _ => true
  floatText := Decimal.text
  floatText_plain := Decimal.text_plain

/-- Login works for a fresh row without a session secret, and for one with a stored string beside another
field. -/
theorem loginMatchesVerification_seven :
    LoginMatchesVerification plainRepr 7 [] ∧
      LoginMatchesVerification plainRepr 7
        [(lit "theme", .str (lit "dark")), (webSessionSecretKey, .str (lit " k1 "))] := by
  have hstored : SecretReadable plainRepr
      [(lit "theme", .str (lit "dark")), (webSessionSecretKey, .str (lit " k1 "))] :=
    ⟨rfl, fun v hv => Or.inl ⟨lit " k1 ", (Option.some.inj hv).symm⟩⟩
  exact ⟨(loginMatchesVerification_iff (by decide) rfl).mpr ⟨rfl, fun _ h => by cases h⟩,
    (loginMatchesVerification_iff (by decide) rfl).mpr hstored⟩

/-- The object `{"web_session_secret": null}` breaks the match. -/
theorem null_not_loginMatchesVerification :
    ¬LoginMatchesVerification plainRepr 7 [(webSessionSecretKey, .null)] := by
  intro h
  let users : Users := fun _ => some (some (.dict [(webSessionSecretKey, .null)]))
  have hreject := (h default default default users rfl).2 rfl
  have hne : (7 : ℤ) ≠ guestUserId := by decide
  obtain ⟨token, p, hparse, hp, hres⟩ :=
    @nullSecret_forgeable users 7 _ ⟨default, default, plainRepr⟩ _ hne rfl rfl rfl rfl
  rw [hreject 0 token p hparse hp] at hres
  cases hres

end Ghpulse.Session
