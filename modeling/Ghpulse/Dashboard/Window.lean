import Ghpulse.Ingest.Validate
import Ghpulse.Library.PyTime
import Ghpulse.Library.Quoting

/-!
# Ranges, windows and dense buckets

The range geometry that the read endpoints share: parsing of a range, the choice of a bucket width, and
the enumeration of the dense buckets of a window. A `RangeWindow` carries that its edges are datetimes
and that its width is positive.

Reference: `backend/api_common.py`.
-/

open Python Ghpulse.Ingest

namespace Ghpulse.Dashboard

/-! ## Exceptions

The read endpoints turn some failures into a status of their own. Anything else leaves the endpoint as an
exception, and the framework answers it with 500.
-/

/-- What a read endpoint can raise: an `HTTPException`, or anything else, which is answered with 500. -/
inductive Failure where
  | http (status : ℕ) (detail : Str)
  | raised (e : Exc)
  deriving DecidableEq

/-- An `OverflowError`. -/
def overflowError (message : Str) : Exc := ⟨lit "OverflowError", message⟩

/-- What a `datetime` can hold. -/
def InRange (t : Instant) : Prop := minInstant ≤ t ∧ t ≤ maxInstant

instance (t : Instant) : Decidable (InRange t) := inferInstanceAs (Decidable (_ ∧ _))

/-- The datetimes, in microseconds. -/
theorem inRange_iff {t : ℤ} :
    InRange t ↔ -62135596800000000 ≤ t ∧ t ≤ 253402300799999999 := Iff.rfl

/-- `timedelta(...)` of a number of microseconds. -/
def timedelta (microseconds : ℤ) : Except Exc ℤ :=
  let days := microseconds / 86400000000
  if -2147483648 ≤ days ∧ days ≤ 2147483647 then
    if -999999999 ≤ days ∧ days ≤ 999999999 then .ok microseconds
    else
      .error (overflowError
        (lit "days=" ++ intText days ++ lit "; must have magnitude <= 999999999"))
  else .error (overflowError (lit "Python int too large to convert to C int"))

/-- `t + delta`. -/
def shift (t : Instant) (delta : ℤ) : Except Exc Instant :=
  if InRange (t + delta) then .ok (t + delta)
  else .error (overflowError (lit "date value out of range"))

/-- `t + timedelta(seconds=seconds)`. -/
def addSeconds (t : Instant) (seconds : ℤ) : Except Exc Instant :=
  timedelta (seconds * 1000000) >>= shift t

/-! ## Ranges

The regular expression is followed character by character. Where `_parse_range` raises through `int` or
`timedelta`, it answers with the same text as for a range that does not match.
-/

/-- `[0-9]`. -/
def isDigit (c : CodePoint) : Bool := decide (0x30 ≤ c.val ∧ c.val ≤ 0x39)

/-- `_RANGE_RE.fullmatch(value)`. -/
def matchesRange (value : Str) : Bool :=
  match value with
  | [] => false
  | c :: cs =>
    isDigit c && decide (c ≠ cp '0') && cs.dropLast.all isDigit &&
      cs.getLast?.any fun u => decide (u = cp 'd' ∨ u = cp 'h')

/-- `HTTPException(status_code=422, detail=f"bad range: {value!r}")`. -/
def badRange (printable : CodePoint → Bool) (value : Str) : Failure :=
  .http 422 (lit "bad range: " ++ repr printable value)

/-- The length of one unit of a range. -/
def unitMicros (value : Str) : ℤ :=
  if value.getLast? = some (cp 'd') then 86400000000 else 3600000000

/-- `_parse_range`; `now` is the clock that the range `all` reads. -/
def parseRange (printable : CodePoint → Bool) (now : Instant) (value : Str) : Except Failure ℤ :=
  if value = lit "all" then .ok now
  else if matchesRange value = false then .error (badRange printable value)
  else
    match int value.dropLast with
    | none => .error (badRange printable value)
    | some number =>
      match timedelta (number * unitMicros value) with
      | .error _ => .error (badRange printable value)
      | .ok delta => if delta ≤ 0 then .error (badRange printable value) else .ok delta

/-! ## Bucket widths

The candidates are in ascending order, and the loop keeps the last one before the quotient falls below
100, or the first one if there is none.
-/

/-- `_BUCKET_CANDIDATES_S`. -/
def bucketCandidates : List ℤ := [60, 300, 900, 1800, 3600, 21600, 43200, 86400]

/-- The loop of `_bucket_seconds`. -/
def chooseBucket (spanS chosen : ℤ) : List ℤ → ℤ
  | [] => chosen
  | candidate :: rest =>
    -- `/` of two integers is a `float`
    if Binary64.nearest ((spanS : ℚ) / candidate) < 100 then chosen
    else chooseBucket spanS candidate rest

/-- `_bucket_seconds`. -/
def bucketSeconds (delta : ℤ) : ℤ := chooseBucket (max 1 (wholeSeconds delta)) 60 bucketCandidates

/-- The bucket is one of the candidates. -/
theorem chooseBucket_mem (spanS chosen : ℤ) (candidates : List ℤ) :
    chooseBucket spanS chosen candidates = chosen ∨
      chooseBucket spanS chosen candidates ∈ candidates := by
  induction candidates generalizing chosen with
  | nil => exact Or.inl rfl
  | cons candidate rest ih =>
    unfold chooseBucket
    split_ifs
    · exact Or.inl rfl
    · right
      rcases ih candidate with h | h
      · rw [h]
        exact List.mem_cons_self
      · exact List.mem_cons_of_mem _ h

/-- The width is one of the candidates. -/
theorem bucketSeconds_mem (delta : ℤ) : bucketSeconds delta ∈ bucketCandidates := by
  rcases chooseBucket_mem (max 1 (wholeSeconds delta)) 60 bucketCandidates with h | h
  · rw [bucketSeconds, h]
    exact List.mem_cons_self
  · exact h

/-- A candidate is positive. -/
theorem pos_of_mem_bucketCandidates {w : ℤ} (h : w ∈ bucketCandidates) : 0 < w := by
  have hall : ∀ w ∈ bucketCandidates, 0 < w := by decide
  exact hall w h

/-! ## Windows

Both edges are datetimes, by a field: whoever builds a window has to show it, and the queries need not ask
again.
-/

/-- `RangeWindow`: a half-open window of datetimes and a bucket width in seconds. -/
structure RangeWindow where
  name : Str
  start : Instant
  stop : Instant
  bucketS : ℤ
  start_range : InRange start
  stop_range : InRange stop
  bucketS_pos : 0 < bucketS

/-- The window of a range, with the width that `_bucket_seconds` gives for a length. -/
def RangeWindow.ofDelta (name : Str) (start stop : Instant) (delta : ℤ) (hstart : InRange start)
    (hstop : InRange stop) : RangeWindow :=
  ⟨name, start, stop, bucketSeconds delta, hstart, hstop,
    pos_of_mem_bucketCandidates (bucketSeconds_mem delta)⟩

/-! ## Dense buckets

The loop of the source ends because the epochs grow. The model gives it the number of turns that it needs,
and `boundsFrom_eq_ok` shows that this number is exact: the loop neither stops early nor has turns left.
-/

/-- `epoch_seconds`. -/
def epochSeconds (value : Instant) : ℤ := wholeSeconds value

/-- `bucket_epoch`. -/
def bucketEpoch (value : Instant) (bucketS : ℤ) : ℤ := epochSeconds value / bucketS * bucketS

/-- A bucket of a window and the epoch of its aligned left edge. -/
structure Bound where
  left : Instant
  right : Instant
  epoch : ℤ
  deriving DecidableEq

/-- The loop of `dense_bucket_bounds`, for at most `fuel` turns. -/
def boundsFrom (start stop bucketS lastEpoch : ℤ) : ℕ → ℤ → Except Exc (List Bound)
  | 0, _ => .ok []
  | fuel + 1, currentEpoch =>
    if currentEpoch ≤ lastEpoch then do
      let current ← addSeconds 0 currentEpoch
      let next ← addSeconds current bucketS
      let rest ← boundsFrom start stop bucketS lastEpoch fuel (currentEpoch + bucketS)
      return ⟨max current start, min next stop, currentEpoch⟩ :: rest
    else .ok []

/-- `dense_bucket_bounds`; the epochs grow by `bucketS`, which bounds the number of turns. -/
def denseBucketBounds (start stop bucketS : ℤ) : Except Exc (List Bound) :=
  if stop ≤ start then .ok []
  else
    let firstEpoch := bucketEpoch start bucketS
    let lastEpoch := bucketEpoch (stop - 1) bucketS
    boundsFrom start stop bucketS lastEpoch ((lastEpoch - firstEpoch) / bucketS + 1).toNat firstEpoch

/-! ## What the enumeration returns

A closed form: the buckets of consecutive epochs, clipped at both ends of the window, or an exception if
an edge is no datetime.
-/

/-- A moderate number of microseconds is a `timedelta`. -/
theorem timedelta_eq_ok {x : ℤ} (h : -1000000000000000000 ≤ x ∧ x ≤ 1000000000000000000) :
    timedelta x = .ok x := by
  unfold timedelta
  dsimp only
  rw [if_pos (by omega), if_pos (by omega)]

/-- Adding seconds to a datetime raises exactly when the sum is not a datetime. -/
theorem addSeconds_eq_ok {t : Instant} (ht : InRange t) {seconds : ℤ} {r : Instant} :
    addSeconds t seconds = .ok r ↔ InRange (t + seconds * 1000000) ∧ r = t + seconds * 1000000 := by
  unfold addSeconds shift
  rw [bind_eq_ok]
  constructor
  · rintro ⟨delta, hdelta, h⟩
    obtain rfl : seconds * 1000000 = delta := by
      unfold timedelta at hdelta
      dsimp only at hdelta
      split_ifs at hdelta
      exact Except.ok.inj hdelta
    split_ifs at h with hrange
    exact ⟨hrange, (Except.ok.inj h).symm⟩
  · rintro ⟨hrange, rfl⟩
    refine ⟨_, timedelta_eq_ok ?_, if_pos hrange⟩
    have ht := inRange_iff.mp ht
    have hrange := inRange_iff.mp hrange
    omega

/-- The bucket of an epoch in a window. -/
def boundAt (start stop bucketS epoch : ℤ) : Bound :=
  ⟨max (epoch * 1000000) start, min ((epoch + bucketS) * 1000000) stop, epoch⟩

/-- `n` epochs, each `bucketS` after the one before. -/
def epochs (bucketS : ℤ) : ℤ → ℕ → List ℤ
  | _, 0 => []
  | first, n + 1 => first :: epochs bucketS (first + bucketS) n

/-- The epochs go up in steps of one bucket. -/
theorem mem_epochs {bucketS first : ℤ} {n : ℕ} {e : ℤ} :
    e ∈ epochs bucketS first n ↔ ∃ i < n, e = first + i * bucketS := by
  induction n generalizing first with
  | zero => simp [epochs]
  | succ n ih =>
    rw [epochs, List.mem_cons, ih]
    constructor
    · rintro (rfl | ⟨i, hi, rfl⟩)
      · exact ⟨0, Nat.succ_pos n, by simp⟩
      · refine ⟨i + 1, Nat.succ_lt_succ hi, ?_⟩
        push_cast
        ring
    · rintro ⟨_ | i, hi, rfl⟩
      · left
        simp
      · refine Or.inr ⟨i, Nat.lt_of_succ_lt_succ hi, ?_⟩
        push_cast
        ring

/-- The loop with exactly the turns it needs: it collects the bucket of every epoch, and raises when
the edge of one of them is not a datetime. -/
theorem boundsFrom_eq_ok {start stop bucketS lastEpoch : ℤ} (hpos : 0 < bucketS) {n : ℕ} {first : ℤ}
    (hlast : lastEpoch + bucketS = first + n * bucketS) {bounds : List Bound} :
    boundsFrom start stop bucketS lastEpoch n first = .ok bounds ↔
      (∀ e ∈ epochs bucketS first n,
        InRange (e * 1000000) ∧ InRange ((e + bucketS) * 1000000)) ∧
      bounds = (epochs bucketS first n).map (boundAt start stop bucketS) := by
  induction n generalizing first bounds with
  | zero =>
    have hnil : epochs bucketS first 0 = [] := rfl
    simp [boundsFrom, hnil, eq_comm]
  | succ n ih =>
    have hrest : lastEpoch + bucketS = first + bucketS + n * bucketS := by
      rw [hlast]
      push_cast
      ring
    -- there is a turn left, so the last epoch has not been passed
    have hle : first ≤ lastEpoch := by
      have : 0 ≤ (n : ℤ) * bucketS := mul_nonneg (Int.natCast_nonneg n) hpos.le
      linarith
    have hzero : InRange 0 := by decide
    have hedge (e : ℤ) : e * 1000000 + bucketS * 1000000 = (e + bucketS) * 1000000 := by ring
    rw [boundsFrom, if_pos hle, epochs, List.forall_mem_cons, List.map_cons]
    constructor
    · intro h
      obtain ⟨current, hcurrent, h⟩ := bind_eq_ok.mp h
      obtain ⟨hleft, rfl⟩ := (addSeconds_eq_ok hzero).mp hcurrent
      rw [zero_add] at hleft h
      obtain ⟨next, hnext, h⟩ := bind_eq_ok.mp h
      obtain ⟨hright, rfl⟩ := (addSeconds_eq_ok hleft).mp hnext
      rw [hedge] at hright h
      obtain ⟨rest, hfrom, h⟩ := bind_eq_ok.mp h
      obtain ⟨hall, rfl⟩ := (ih hrest).mp hfrom
      cases h
      exact ⟨⟨⟨hleft, hright⟩, hall⟩, rfl⟩
    · rintro ⟨⟨⟨hleft, hright⟩, hall⟩, rfl⟩
      have hcurrent : addSeconds 0 first = .ok (first * 1000000) :=
        (addSeconds_eq_ok hzero).mpr (by rw [zero_add]; exact ⟨hleft, rfl⟩)
      have hnext : addSeconds (first * 1000000) bucketS = .ok ((first + bucketS) * 1000000) :=
        (addSeconds_eq_ok hleft).mpr (by rw [hedge]; exact ⟨hright, rfl⟩)
      refine bind_eq_ok.mpr ⟨_, hcurrent, bind_eq_ok.mpr ⟨_, hnext, bind_eq_ok.mpr ⟨_, ?_, rfl⟩⟩⟩
      exact (ih hrest).mpr ⟨hall, rfl⟩

/-! ## Windows after the epoch

A datetime has less than `2 ^ 53` seconds, so its whole seconds are known up to a carry. -/

section AfterEpoch

/-- The seconds of a datetime are below `2 ^ 53`. -/
theorem lt_pow_of_le_maxInstant {t : ℤ} (hmax : t ≤ maxInstant) : t < 2 ^ 53 * 1000000 := by
  have hmax : t ≤ 253402300799999999 := hmax
  omega

variable {t : ℤ} (h0 : 0 ≤ t) (hmax : t ≤ maxInstant) {bucketS : ℤ} (hpos : 0 < bucketS)
include h0 hmax hpos

/-- A datetime lies before the right edge of its bucket. -/
theorem lt_bucketEpoch_add : t < (bucketEpoch t bucketS + bucketS) * 1000000 := by
  have hle : t / 1000000 ≤ epochSeconds t :=
    le_wholeSeconds h0 (lt_pow_of_le_maxInstant hmax)
  have hlt : epochSeconds t < bucketEpoch t bucketS + bucketS := by
    have := Int.lt_ediv_add_one_mul_self (epochSeconds t) hpos
    unfold bucketEpoch
    linarith
  have hfloor : t < (t / 1000000 + 1) * 1000000 := by omega
  have hstep : t / 1000000 + 1 ≤ bucketEpoch t bucketS + bucketS := by omega
  exact hfloor.trans_le (mul_le_mul_of_nonneg_right hstep (by norm_num))

/-- From the epoch on, a bucket does not start before it. -/
theorem bucketEpoch_nonneg : 0 ≤ bucketEpoch t bucketS := by
  have hseconds : 0 ≤ epochSeconds t :=
    le_trans (by omega) (le_wholeSeconds h0 (lt_pow_of_le_maxInstant hmax))
  exact mul_nonneg (Int.ediv_nonneg hseconds hpos.le) hpos.le

end AfterEpoch

/-- Before the year 2514 no carry is possible: a bucket starts at or before its datetimes. -/
theorem bucketEpoch_le {t : ℤ} (h0 : 0 ≤ t) (hlt : t < 2 ^ 34 * 1000000) {bucketS : ℤ}
    (hpos : 0 < bucketS) : bucketEpoch t bucketS * 1000000 ≤ t := by
  have hle : bucketEpoch t bucketS ≤ epochSeconds t := Int.ediv_mul_le _ hpos.ne'
  have heq : epochSeconds t = t / 1000000 := wholeSeconds_eq h0 hlt
  omega

/-- A later instant is in no earlier bucket. -/
theorem bucketEpoch_mono {a b : ℤ} (ha : 0 ≤ a) (h : a ≤ b) {bucketS : ℤ} (hpos : 0 < bucketS) :
    bucketEpoch a bucketS ≤ bucketEpoch b bucketS :=
  mul_le_mul_of_nonneg_right (Int.ediv_le_ediv hpos (wholeSeconds_mono ha h)) hpos.le

/-- The number of buckets of a window. -/
def bucketCount (start stop bucketS : ℤ) : ℕ :=
  ((bucketEpoch (stop - 1) bucketS - bucketEpoch start bucketS) / bucketS + 1).toNat

/-- The last bucket ends a whole number of widths after the first one starts. -/
theorem lastEpoch_add_of_le {start stop bucketS : ℤ} (hpos : 0 < bucketS)
    (hle : bucketEpoch start bucketS ≤ bucketEpoch (stop - 1) bucketS) :
    bucketEpoch (stop - 1) bucketS + bucketS =
      bucketEpoch start bucketS + bucketCount start stop bucketS * bucketS := by
  have hdvd : bucketS ∣ bucketEpoch (stop - 1) bucketS - bucketEpoch start bucketS :=
    (Dvd.intro_left _ rfl).sub (Dvd.intro_left _ rfl)
  have hquot : 0 ≤ (bucketEpoch (stop - 1) bucketS - bucketEpoch start bucketS) / bucketS :=
    Int.ediv_nonneg (by linarith) hpos.le
  have hcancel := Int.ediv_mul_cancel hdvd
  rw [bucketCount, Int.toNat_of_nonneg (by linarith)]
  linarith

/-- The buckets of a window reach to the end of its last one. -/
theorem lastEpoch_add {start stop : ℤ} (h0 : 0 ≤ start) (hlt : start < stop) {bucketS : ℤ}
    (hpos : 0 < bucketS) : bucketEpoch (stop - 1) bucketS + bucketS =
      bucketEpoch start bucketS + bucketCount start stop bucketS * bucketS :=
  lastEpoch_add_of_le hpos (bucketEpoch_mono h0 (Int.le_sub_one_of_lt hlt) hpos)

/-- The dense buckets of a window after the epoch: they can be enumerated exactly when the right edge
of the last one is a datetime. -/
theorem denseBucketBounds_eq_ok {start stop : ℤ} (h0 : 0 ≤ start) (hlt : start < stop)
    (hmax : stop ≤ maxInstant) {bucketS : ℤ} (hpos : 0 < bucketS) {bounds : List Bound} :
    denseBucketBounds start stop bucketS = .ok bounds ↔
      (bucketEpoch (stop - 1) bucketS + bucketS) * 1000000 ≤ maxInstant ∧
      bounds = (epochs bucketS (bucketEpoch start bucketS) (bucketCount start stop bucketS)).map
        (boundAt start stop bucketS) := by
  have hlast := lastEpoch_add h0 hlt hpos
  have hfirst := bucketEpoch_nonneg h0 (hlt.le.trans hmax) hpos
  have hmono := bucketEpoch_mono h0 (Int.le_sub_one_of_lt hlt) hpos
  unfold denseBucketBounds
  rw [if_neg (not_le.mpr hlt)]
  refine (boundsFrom_eq_ok hpos hlast).trans (and_congr_left' ?_)
  constructor
  · intro hall
    -- the last epoch is one of them
    have hcount : 0 < bucketCount start stop bucketS := by
      by_contra hzero
      rw [Nat.eq_zero_of_not_pos hzero] at hlast
      push_cast at hlast
      linarith
    obtain ⟨n, hn⟩ := Nat.exists_eq_succ_of_ne_zero hcount.ne'
    have hmem : bucketEpoch start bucketS + n * bucketS ∈
        epochs bucketS (bucketEpoch start bucketS) (bucketCount start stop bucketS) :=
      mem_epochs.mpr ⟨n, hn ▸ Nat.lt_succ_self n, rfl⟩
    have hright := (inRange_iff.mp (hall _ hmem).2).2
    rw [hlast, hn]
    show _ ≤ (253402300799999999 : ℤ)
    push_cast
    linarith
  · intro hright e he
    obtain ⟨i, hi, rfl⟩ := mem_epochs.mp he
    have hlow : 0 ≤ (i : ℤ) * bucketS := mul_nonneg (Int.natCast_nonneg i) hpos.le
    have hhigh : ((i : ℤ) + 1) * bucketS ≤ bucketCount start stop bucketS * bucketS :=
      mul_le_mul_of_nonneg_right (by exact_mod_cast hi) hpos.le
    have hright : (bucketEpoch (stop - 1) bucketS + bucketS) * 1000000 ≤ 253402300799999999 := hright
    rw [inRange_iff, inRange_iff]
    constructor <;> constructor <;> linarith

end Ghpulse.Dashboard
