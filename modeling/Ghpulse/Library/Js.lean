import Ghpulse.Library.PyTime

/-!
# JavaScript values

What `JSON.parse` returns, and the conversions of such a value that the language defines: reading and
writing of properties, `Number` and `String`. A number is exact: sums and products of integers below
`2 ^ 53` are not rounded by doubles either. What depends on the engine is in a `Runtime`.
-/

open Python

namespace Js

/-! ## Values

Arrays and objects are lists, in the order of their elements and keys. There are no functions and no
prototypes, but the conversions know where an own property hides an inherited one.
-/

/-- A number. Zero has no sign. -/
inductive Number where
  | finite (q : ℚ)
  | nan
  | posInf
  | negInf
  deriving DecidableEq

/-- A value that consists of JSON data, or `undefined`. -/
inductive Value where
  | undefined
  | null
  | bool (b : Bool)
  | number (n : Number)
  | string (s : Str)
  | array (items : List Value)
  | object (fields : List (Str × Value))

/-- What a script can throw: a `TypeError` of its own, or one that the engine raises. -/
inductive Thrown where
  | typeError (message : Str)
  | engine
  deriving DecidableEq

/-- A finite number, as `Number.isFinite` finds it: without conversion. -/
def Value.finite? : Value → Option ℚ
  | .number (.finite q) => some q
  | _ => none

/-- `value == null`. -/
def Value.isNullish : Value → Bool
  | .undefined | .null => true
  | _ => false

/-- Whether a value counts as true. -/
def Value.truthy : Value → Bool
  | .undefined | .null => false
  | .bool b => b
  | .number n => decide (n ≠ .finite 0 ∧ n ≠ .nan)
  | .string s => decide (s ≠ [])
  | .array _ | .object _ => true

/-- `value || other`. -/
def Value.or (value other : Value) : Value := if value.truthy then value else other

/-- `Array.isArray(value) ? value : []`. -/
def Value.elements : Value → List Value
  | .array items => items
  | _ => []

/-! ## Properties

Reading a property that is not there gives `undefined`; of `null` and `undefined` nothing can be read.
-/

/-- The value of a field; the first one counts. -/
def field (key : Str) : List (Str × Value) → Value
  | [] => .undefined
  | (k, v) :: fields => if k = key then v else field key fields

/-- The fields after an assignment: in place when the field exists, at the end otherwise. -/
def setField (key : Str) (value : Value) : List (Str × Value) → List (Str × Value)
  | [] => [(key, value)]
  | (k, v) :: fields => if k = key then (k, value) :: fields else (k, v) :: setField key value fields

/-- The own fields of an object. Those of an array or a string, its indices, are left out. -/
def Value.fields : Value → List (Str × Value)
  | .object fields => fields
  | _ => []

/-- `value.key` of a value that is not `null` or `undefined`. -/
def Value.get (value : Value) (key : Str) : Value := field key value.fields

/-- `Object.prototype.hasOwnProperty.call(value, key)`. -/
def Value.hasOwn (value : Value) (key : Str) : Bool := value.fields.any fun p => decide (p.1 = key)

/-! ## Conversions

`Number` and `String` follow the steps of the language, up to the text of a number and the messages of the
engine.
-/

/-- The parts of the language that an engine implements in its own way, or that do not matter here: the
double nearest to a numeric literal, the text of a number, an array or an object, `Date.parse` and
`Date.now()`. -/
structure Runtime where
  literalValue : Str → Number
  ownText : Value → Str
  dateParse : Str → Number
  now : ℤ

/-- White space and line ends. -/
def isSpace (c : CodePoint) : Bool :=
  decide (c.val ∈ [0x9, 0xa, 0xb, 0xc, 0xd, 0x20, 0xa0, 0x1680, 0x2028, 0x2029, 0x202f, 0x205f, 0x3000,
    0xfeff] ∨ (0x2000 ≤ c.val ∧ c.val ≤ 0x200a))

/-- A digit below a base. -/
def isDigitOf (base : ℕ) (c : CodePoint) : Bool :=
  decide ((0x30 ≤ c.val ∧ c.val < 0x30 + min base 10) ∨ (0x61 ≤ c.val ∧ c.val + 10 < 0x61 + base) ∨
    (0x41 ≤ c.val ∧ c.val + 10 < 0x41 + base))

/-- At least one digit, and nothing else. -/
def isDigits (base : ℕ) (s : Str) : Bool := decide (s ≠ []) && s.all (isDigitOf base)

/-- An optional exponent. -/
def isExponent : Str → Bool
  | [] => true
  | e :: rest =>
    decide (e = cp 'e' ∨ e = cp 'E') &&
      match rest with
      | [] => false
      | c :: cs => if c = cp '+' ∨ c = cp '-' then isDigits 10 cs else isDigits 10 (c :: cs)

/-- `StrUnsignedDecimalLiteral`. -/
def isUnsignedDecimal (s : Str) : Bool :=
  if s = lit "Infinity" then true
  else
    let whole := s.takeWhile (isDigitOf 10)
    match s.dropWhile (isDigitOf 10) with
    | [] => decide (whole ≠ [])
    | c :: rest =>
      if c = cp '.' then
        decide (whole ≠ [] ∨ rest.takeWhile (isDigitOf 10) ≠ []) &&
          isExponent (rest.dropWhile (isDigitOf 10))
      else decide (whole ≠ []) && isExponent (c :: rest)

/-- `NonDecimalIntegerLiteral`. -/
def isNonDecimal : Str → Bool
  | zero :: x :: digits =>
    decide (zero = cp '0') &&
      ((decide (x = cp 'x' ∨ x = cp 'X') && isDigits 16 digits) ||
        (decide (x = cp 'o' ∨ x = cp 'O') && isDigits 8 digits) ||
        (decide (x = cp 'b' ∨ x = cp 'B') && isDigits 2 digits))
  | _ => false

/-- `StrNumericLiteral`. -/
def isNumericLiteral : Str → Bool
  | [] => false
  | c :: rest =>
    if c = cp '+' ∨ c = cp '-' then isUnsignedDecimal rest
    else isUnsignedDecimal (c :: rest) || isNonDecimal (c :: rest)

/-- `Number(s)` of a text. -/
def numberOfText (js : Runtime) (s : Str) : Number :=
  if trim isSpace s = [] then .finite 0
  else if isNumericLiteral (trim isSpace s) then js.literalValue (trim isSpace s)
  else .nan

mutual

/-- Whether a value has a text and a number. An own `toString` hides the inherited one, and data is no
function. -/
def Value.convertible : Value → Bool
  | .array items => Value.allConvertible items
  | .object fields => !fields.any fun p => decide (p.1 = lit "toString")
  | _ => true

/-- Whether all elements have a text. -/
def Value.allConvertible : List Value → Bool
  | [] => true
  | item :: items => item.convertible && Value.allConvertible items

end

/-- `Number(value)` of a convertible value. -/
def toNumber (js : Runtime) : Value → Number
  | .undefined => .nan
  | .null => .finite 0
  | .bool b => .finite (if b then 1 else 0)
  | .number n => n
  | .string s => numberOfText js s
  | .array items => numberOfText js (js.ownText (.array items))
  | .object fields => numberOfText js (js.ownText (.object fields))

/-- `Number(value)`. -/
def number (js : Runtime) (value : Value) : Except Thrown Number :=
  if value.convertible then .ok (toNumber js value) else .error .engine

/-- `String(value)` of a convertible value. -/
def toText (js : Runtime) : Value → Str
  | .undefined => lit "undefined"
  | .null => lit "null"
  | .bool b => if b then lit "true" else lit "false"
  | .number n => js.ownText (.number n)
  | .string s => s
  | .array items => js.ownText (.array items)
  | .object fields => js.ownText (.object fields)

/-! ## Numeric texts

When a text is a number, as far as it is needed to see that the text of a date is not one.
-/

theorem isDigitOf_digitChar {d : ℕ} (hd : d < 10) : isDigitOf 10 (digitChar d) = true := by
  interval_cases d <;> decide

/-- A decimal that is neither at its end nor at a point or an exponent after its first digits is none. -/
theorem isUnsignedDecimal_eq_false {ds rest : Str} {c : CodePoint} (hne : ds ≠ [])
    (hds : ∀ x ∈ ds, isDigitOf 10 x = true) (hc : isDigitOf 10 c = false) (hpoint : c ≠ cp '.')
    (hexp : ¬ (c = cp 'e' ∨ c = cp 'E')) : isUnsignedDecimal (ds ++ c :: rest) = false := by
  have hword : ds ++ c :: rest ≠ lit "Infinity" := by
    intro h
    obtain ⟨d, ds, rfl⟩ := List.exists_cons_of_ne_nil hne
    rw [(List.cons.inj h).1] at hds
    exact absurd (hds _ List.mem_cons_self) (by decide)
  have hdrop : (ds ++ c :: rest).dropWhile (isDigitOf 10) = c :: rest := by
    rw [List.dropWhile_append_of_pos hds, List.dropWhile_cons_of_neg (by rw [hc]; exact Bool.false_ne_true)]
  have hexponent : isExponent (c :: rest) = false := by
    simp only [isExponent, decide_eq_false hexp, Bool.false_and]
  unfold isUnsignedDecimal
  rw [if_neg hword]
  simp only [hdrop, if_neg hpoint, hexponent, Bool.and_false]

/-- A text that starts with digits and goes on in another way than a decimal is not a numeric literal. -/
theorem isNumericLiteral_eq_false {a b : ℕ} (ha : a < 10) (hb : b < 10) {ds rest : Str} {c : CodePoint}
    (hds : ∀ x ∈ ds, isDigitOf 10 x = true) (hc : isDigitOf 10 c = false) (hpoint : c ≠ cp '.')
    (hexp : ¬ (c = cp 'e' ∨ c = cp 'E')) :
    isNumericLiteral (digitChar a :: digitChar b :: ds ++ c :: rest) = false := by
  have hsign : ¬ (digitChar a = cp '+' ∨ digitChar a = cp '-') :=
    not_or.mpr ⟨(digitChar_ne ha).2.2.2, (digitChar_ne ha).2.2.1⟩
  have hbase : isNonDecimal (digitChar a :: digitChar b :: ds ++ c :: rest) = false := by
    have hletter : digitChar b ≠ cp 'x' ∧ digitChar b ≠ cp 'X' ∧ digitChar b ≠ cp 'o' ∧
        digitChar b ≠ cp 'O' ∧ digitChar b ≠ cp 'b' ∧ digitChar b ≠ cp 'B' := by
      interval_cases b <;> decide
    simp [isNonDecimal, hletter]
  have hdecimal : isUnsignedDecimal (digitChar a :: digitChar b :: ds ++ c :: rest) = false := by
    refine isUnsignedDecimal_eq_false (List.cons_ne_nil _ _) ?_ hc hpoint hexp
    refine List.forall_mem_cons.mpr ⟨isDigitOf_digitChar ha, ?_⟩
    exact List.forall_mem_cons.mpr ⟨isDigitOf_digitChar hb, hds⟩
  rw [List.cons_append, isNumericLiteral, if_neg hsign]
  exact Bool.or_eq_false_iff.mpr ⟨hdecimal, hbase⟩

/-- The digits of a padded number. -/
theorem exists_padded (d n : ℕ) : ∃ ds : List ℕ, ds.length = d ∧ (∀ k ∈ ds, k < 10) ∧
    padded d n = ds.map digitChar := by
  induction d generalizing n with
  | zero => exact ⟨[], rfl, by simp, rfl⟩
  | succ d ih =>
    obtain ⟨ds, hlength, hlt, hpadded⟩ := ih (n / 10)
    refine ⟨ds ++ [n % 10], by simp [hlength], ?_, by simp [padded, hpadded]⟩
    intro k hk
    rcases List.mem_append.mp hk with hk | hk
    · exact hlt k hk
    · rw [List.mem_singleton.mp hk]
      exact Nat.mod_lt n (by norm_num)

/-- The ISO text of a datetime starts with the digits of the year and a dash. -/
theorem isoformat_eq (instant : ℤ) : ∃ (a b c d : ℕ) (rest : Str), a < 10 ∧ b < 10 ∧ c < 10 ∧ d < 10 ∧
    isoformat instant =
      digitChar a :: digitChar b :: [digitChar c, digitChar d] ++ cp '-' :: rest := by
  obtain ⟨ds, hlength, hlt, hpadded⟩ := exists_padded 4 (civil (instant / 1000000 / 86400)).1.toNat
  obtain ⟨a, b, c, d, rfl⟩ := List.length_eq_four.mp hlength
  simp only [List.forall_mem_cons] at hlt
  have hyear : ∃ rest, isoformat instant =
      padded 4 (civil (instant / 1000000 / 86400)).1.toNat ++ cp '-' :: rest := by
    unfold isoformat
    simp only [List.append_assoc, List.cons_append]
    exact ⟨_, rfl⟩
  obtain ⟨rest, htext⟩ := hyear
  exact ⟨a, b, c, d, rest, hlt.1, hlt.2.1, hlt.2.2.1, hlt.2.2.2.1, htext.trans (hpadded ▸ rfl)⟩

theorem isoformat_ne_nil (t : ℤ) : isoformat t ≠ [] := by
  obtain ⟨a, b, c, d, rest, -, -, -, -, htext⟩ := isoformat_eq t
  rw [htext]
  exact List.cons_ne_nil _ _

/-- The ISO text of a datetime ends with its offset. -/
theorem getLast?_isoformat (instant : ℤ) : (isoformat instant).getLast? = some (cp '0') := by
  have hzone : (lit "+00:00").getLast? = some (cp '0') := by decide
  unfold isoformat
  rw [List.getLast?_append, hzone]
  rfl

/-- The ISO text of a datetime is not a number: its digits stop at the dash after the year. -/
theorem numberOfText_isoformat (js : Runtime) (instant : ℤ) :
    numberOfText js (isoformat instant) = .nan := by
  obtain ⟨a, b, c, d, rest, ha, hb, hc, hd, htext⟩ := isoformat_eq instant
  have hnumeric : isNumericLiteral (isoformat instant) = false := by
    rw [htext]
    refine isNumericLiteral_eq_false ha hb ?_ (by decide) (by decide) (by decide)
    exact List.forall_mem_cons.mpr ⟨isDigitOf_digitChar hc,
      List.forall_mem_cons.mpr ⟨isDigitOf_digitChar hd, by simp⟩⟩
  have hhead : isSpace (digitChar a) = false := by
    clear htext
    interval_cases a <;> decide
  have htrim : trim isSpace (isoformat instant) = isoformat instant := by
    refine trim_eq_self ?_ ?_
    · rw [htext]
      intro x hx
      cases hx
      exact hhead
    · rw [getLast?_isoformat]
      intro x hx
      cases hx
      decide
  rw [numberOfText, htrim, if_neg (isoformat_ne_nil instant), hnumeric]
  rfl

end Js
