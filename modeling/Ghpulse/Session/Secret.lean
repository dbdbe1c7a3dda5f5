import Ghpulse.Session.Token
import Ghpulse.Library.Quoting

/-!
# The session secret of a user

The secret is kept in the `config` column of the external `users` table. Login reads it in SQL with
`config->>'web_session_secret'` and creates it when it is blank; verification decodes the whole
column and applies `str` to the value. `loginMatchesVerification_iff` says for which objects the two
readings are one.

References: `backend/session.py`, `backend/login.py` (`login_post`).
-/

open Python

namespace Ghpulse.Session

/-- `WEB_SESSION_SECRET_KEY`. -/
def webSessionSecretKey : Str := lit "web_session_secret"

/-! ## The users table

The table belongs to another application, so nothing is known of the column but that it is `jsonb`.
Numbers with a fraction keep their digits in it, and are printed in different ways by the two sides.
-/

/-- A `jsonb` number with a fraction; PostgreSQL keeps its digits, trailing zeros included. -/
structure Decimal where
  negative : Bool
  whole : ℕ
  fraction : List (Fin 10)
  fraction_ne_nil : fraction ≠ []

/-- The text of a `jsonb` number. -/
def Decimal.text (x : Decimal) : Str :=
  (if x.negative then [cp '-'] else []) ++
    natText x.whole ++ cp '.' :: x.fraction.map fun d : Fin 10 => digitChar d.val

/-- What Python's `str` adds to the JSON text: `str.isprintable` and the text of a float. -/
structure PyRepr where
  /-- `str.isprintable` of one character. -/
  printable : CodePoint → Bool
  /-- `str(float(x))`. -/
  floatText : Decimal → Str
  floatText_plain : ∀ x, Json.Plain (floatText x)

/-- A value of the `config` column. -/
abbrev Config := Json Decimal

/-- The `users` table: no row, a row with a null `config`, or a row with a JSON value. -/
abbrev Users := ℤ → Option (Option Config)

theorem Decimal.text_plain (x : Decimal) : Json.Plain x.text := by
  constructor
  · simp [Decimal.text]
  · have hdigit {d : ℕ} (hd : d < 10) :
        isSpace (digitChar d) = false ∧ Json.isDelimiter (digitChar d) = false :=
      ⟨(digitChar_ne hd).1, Json.isDelimiter_digitChar hd⟩
    intro c hc
    rw [Decimal.text, List.mem_append, List.mem_append, List.mem_cons] at hc
    rcases hc with (hc | hc) | rfl | hc
    · split at hc
      · obtain rfl : c = cp '-' := by simpa using hc
        exact ⟨by decide, by decide⟩
      · cases hc
    · obtain ⟨d, hd, rfl⟩ := mem_natText hc
      exact hdigit hd
    · exact ⟨by decide, by decide⟩
    · obtain ⟨d, -, rfl⟩ := List.mem_map.mp hc
      exact hdigit d.isLt

/-- How PostgreSQL writes a `jsonb` value. -/
def pgStyle : Json.Style Decimal where
  null := lit "null"
  bool b := if b then lit "true" else lit "false"
  num := Decimal.text
  quote := jsonQuote
  null_plain := Json.plain_of_all (by decide) rfl
  bool_plain b := by cases b <;> exact Json.plain_of_all (by decide) rfl
  num_plain := Decimal.text_plain

/-- How Python writes the decoded value. -/
def pyStyle (py : PyRepr) : Json.Style Decimal where
  null := lit "None"
  bool b := if b then lit "True" else lit "False"
  num := py.floatText
  quote := repr py.printable
  null_plain := Json.plain_of_all (by decide) rfl
  bool_plain b := by cases b <;> exact Json.plain_of_all (by decide) rfl
  num_plain := py.floatText_plain

mutual

/-- Whether `json.loads` accepts a value: no integer is above the digit limit. -/
def decodes : Config → Bool
  | .int z => (strInt z).isSome
  | .list items => itemsDecode items
  | .dict fields => fieldsDecode fields
  | _ => true

/-- `decodes` of every element. -/
def itemsDecode : List Config → Bool
  | [] => true
  | v :: vs => decodes v && itemsDecode vs

/-- `decodes` of every field. -/
def fieldsDecode : List (Str × Config) → Bool
  | [] => true
  | (_, v) :: fs => decodes v && fieldsDecode fs

end

/-! ## Login

Everything happens in SQL, on the text of the value. Only a blank text makes a new secret.
-/

/-- `config->>key`: null for a missing key, for a JSON null and for a value that is no object. -/
def textAt (key : Str) : Option Config → Option Str
  | some (.dict fields) =>
    match fields.lookup key with
    | none | some .null => none
    | some v => some (Json.text pgStyle v)
  | _ => none

/-- `existing = str(row[0] or "").strip()`. -/
def existingSecret (config : Option Config) : Str :=
  strip ((textAt webSessionSecretKey config).getD [])

/-- Replace a field of an object or add it. -/
def setField (key : Str) (v : Config) : List (Str × Config) → List (Str × Config)
  | [] => [(key, v)]
  | (k, w) :: fs => if k = key then (key, v) :: fs else (k, w) :: setField key v fs

/-- `jsonb_set(COALESCE(config, '{}'), '{key}', v, true)`; only an object has a field to set. -/
def jsonbSet (key : Str) (v : Config) (config : Option Config) : Except Error Config :=
  match config.getD (.dict []) with
  | .dict fields => .ok (.dict (setField key v fields))
  | _ => .error .databaseError

/-- `ensure_user_session_secret`, with the secret that `token_urlsafe(32)` would return. -/
def ensureUserSessionSecret (minted : UrlSafe) (users : Users) (userId : ℤ) :
    Except Error (Option Str × Users) :=
  match users userId with
  | none => .ok (none, users)
  | some config =>
    if existingSecret config ≠ [] then .ok (some (existingSecret config), users)
    else do
      let updated ← jsonbSet webSessionSecretKey (.str minted.text) config
      let returned := (textAt webSessionSecretKey (some updated)).getD (lit "None")
      return (some returned, Function.update users userId (some (some updated)))

/-! ## Verification

The column is decoded and the value converted by `str`, so that a missing key and a JSON null differ.
-/

/-- `load_user_config`: no row, a null column and a JSON null are all `None`. -/
def loadUserConfig (users : Users) (userId : ℤ) : Except Error (Option Config) :=
  match users userId with
  | none | some none => .ok none
  | some (some config) =>
    if decodes config then
      match config with
      | .null => .ok none
      | _ => .ok (some config)
    else .error .valueError

/-- `str(config.get(WEB_SESSION_SECRET_KEY, "")).strip()`; only an object has a `get`. -/
def configSecret (py : PyRepr) : Config → Except Error Str
  | .dict fields =>
    match fields.lookup webSessionSecretKey with
    | none => .ok (strip [])
    | some v => .ok (strip (Json.text (pyStyle py) v))
  | _ => .error .attributeError

/-- The secret a user's token is checked against, if there is one. -/
def checkedSecret (py : PyRepr) (users : Users) (userId : ℤ) : Except Error (Option Str) := do
  match ← loadUserConfig users userId with
  | none => return none
  | some config =>
    let secret ← configSecret py config
    return if secret = [] then none else some secret

/-- What the process knows besides the users table. -/
structure Env where
  /-- HMAC-SHA256. -/
  digest : Digest
  /-- `_GUEST_SECRET`. -/
  guestSecret : UrlSafe
  /-- The text of decoded values. -/
  py : PyRepr

/-- `resolve_session_user_id` at clock `now`. -/
def resolveSessionUserId (env : Env) (users : Users) (now : ℚ) (token : Str) :
    Except Error (Option ℤ) :=
  match parseSessionToken token with
  | none => .ok none
  | some parsed =>
    if parsed.userId = guestUserId then
      verifySessionToken env.digest now token env.guestSecret.text
    else do
      match ← checkedSecret env.py users parsed.userId with
      | none => return none
      | some secret => verifySessionToken env.digest now token secret

end Ghpulse.Session
