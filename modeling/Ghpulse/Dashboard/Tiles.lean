import Ghpulse.Dashboard.Counting
import Ghpulse.Library.Tiling

/-!
# Dense buckets as a tiling

The buckets of a window tile it, and every instant of a bucket belongs to the epoch that SQL assigns to
it, as long as `epoch_seconds` does not move an end of the window into another bucket. `int` of a `float`
moves a datetime to the next second when it has a fraction and lies before the epoch, and when the
fraction is lost in the rounding to 53 bits; that matters when the next second is a bucket edge.

Reference: `backend/api_common.py`.
-/

open Python Ghpulse.Ingest

namespace Ghpulse.Dashboard

/-! ## The condition

`RoundsUp` is about a datetime, `StaysInBucket` about a datetime and a width: a carry is harmless unless
the next second is the edge of a bucket.
-/

/-- `int` of the seconds of a datetime is the second after its own. -/
def RoundsUp (t : Instant) : Prop := t / 1000000 < wholeSeconds t

instance (t : Instant) : Decidable (RoundsUp t) := inferInstanceAs (Decidable (_ < _))

/-- A datetime stays in its bucket: it does not round up to a bucket edge. -/
def StaysInBucket (bucketS t : ℤ) : Prop := ¬ (RoundsUp t ∧ bucketS ∣ t / 1000000 + 1)

instance (bucketS t : ℤ) : Decidable (StaysInBucket bucketS t) := inferInstanceAs (Decidable (¬ _))

/-- The left edge, in seconds, of the bucket of an instant. -/
def leftEdge (bucketS t : ℤ) : ℤ := t / 1000000 / bucketS * bucketS

/-- Both ends of a window stay in their buckets, and the outer edges of these are datetimes. -/
structure EdgesExact (start stop bucketS : ℤ) : Prop where
  start_stays : StaysInBucket bucketS start
  stop_stays : StaysInBucket bucketS (stop - 1)
  first_range : minInstant ≤ leftEdge bucketS start * 1000000
  last_range : (leftEdge bucketS (stop - 1) + bucketS) * 1000000 ≤ maxInstant

/-- Bounds tile a window, and every instant of a bucket belongs to its epoch. -/
structure TilesWindow (start stop bucketS : ℤ) (bounds : List Bound) : Prop where
  ne_nil : bounds ≠ []
  tiles : Tiling.Tiles start stop (bounds.map fun b => (b.left, b.right))
  epoch : ∀ b ∈ bounds, ∀ t : Instant, b.left ≤ t → t < b.right → sqlEpoch bucketS t = b.epoch

/-! ## The epoch of a datetime

A datetime has less than `2 ^ 53` seconds, so its whole seconds are right or one too large; the epoch is
the edge of its bucket or the one after.
-/

section Epoch

variable {t : ℤ} (ht : InRange t) {bucketS : ℤ} (hpos : 0 < bucketS)

theorem abs_lt_of_inRange {t : ℤ} (ht : InRange t) : |t| < 2 ^ 53 * 1000000 := by
  have ht := inRange_iff.mp ht
  rw [abs_lt]
  omega

include hpos in
/-- The edge is at most as late as the instant, and the next one is later. -/
theorem leftEdge_le (t : ℤ) : leftEdge bucketS t * 1000000 ≤ t ∧
    t < (leftEdge bucketS t + bucketS) * 1000000 := by
  have hle : leftEdge bucketS t ≤ t / 1000000 := Int.ediv_mul_le _ hpos.ne'
  have hlt : t / 1000000 < leftEdge bucketS t + bucketS := by
    have := Int.lt_ediv_add_one_mul_self (t / 1000000) hpos
    unfold leftEdge
    linarith
  constructor <;> omega

include hpos in
/-- The multiple below the next integer is the same, unless that integer is a multiple itself. -/
theorem ediv_add_one_mul (q : ℤ) :
    (q + 1) / bucketS * bucketS = q / bucketS * bucketS + if bucketS ∣ q + 1 then bucketS else 0 := by
  have hlt : q < (q / bucketS + 1) * bucketS := Int.lt_ediv_add_one_mul_self q hpos
  have hle : q / bucketS * bucketS ≤ q := Int.ediv_mul_le q hpos.ne'
  split_ifs with hdvd
  · obtain ⟨k, hk⟩ := hdvd
    have hquot : q / bucketS = k - 1 := by
      refine le_antisymm (Int.le_sub_one_of_lt ?_) ((Int.le_ediv_iff_mul_le hpos).mpr ?_)
      · exact (Int.ediv_lt_iff_lt_mul hpos).mpr (by linarith)
      · linarith
    rw [hquot, hk, Int.mul_ediv_cancel_left k hpos.ne']
    ring
  · have hne : q + 1 ≠ (q / bucketS + 1) * bucketS := fun h => hdvd (h ▸ Dvd.intro_left _ rfl)
    have hquot : (q + 1) / bucketS = q / bucketS := by
      refine le_antisymm (Int.lt_add_one_iff.mp ?_) (Int.ediv_le_ediv hpos (by linarith))
      exact (Int.ediv_lt_iff_lt_mul hpos).mpr (lt_of_le_of_ne (Int.add_one_le_of_lt hlt) hne)
    rw [hquot, add_zero]

include ht hpos in
/-- The epoch of a datetime is the edge of its bucket, or the next edge if it does not stay there. -/
theorem bucketEpoch_eq : bucketEpoch t bucketS =
    leftEdge bucketS t + if StaysInBucket bucketS t then 0 else bucketS := by
  obtain ⟨hlo, hhi⟩ := wholeSeconds_mem (abs_lt_of_inRange ht)
  by_cases hup : RoundsUp t
  · have hnext : epochSeconds t = t / 1000000 + 1 := le_antisymm hhi (Int.add_one_le_of_lt hup)
    rw [bucketEpoch, hnext, ediv_add_one_mul hpos, leftEdge]
    by_cases hdvd : bucketS ∣ t / 1000000 + 1
    · have hleaves : ¬ StaysInBucket bucketS t := fun h => h ⟨hup, hdvd⟩
      rw [if_pos hdvd, if_neg hleaves]
    · have hstays : StaysInBucket bucketS t := fun h => hdvd h.2
      rw [if_neg hdvd, if_pos hstays]
  · have hsame : epochSeconds t = t / 1000000 := le_antisymm (not_lt.mp hup) hlo
    have hstays : StaysInBucket bucketS t := fun h => hup h.1
    rw [bucketEpoch, hsame, if_pos hstays, add_zero, leftEdge]

include ht hpos in
/-- It is the edge of its bucket exactly when it is not later than the datetime. -/
theorem bucketEpoch_le_iff : bucketEpoch t bucketS * 1000000 ≤ t ↔ StaysInBucket bucketS t := by
  obtain ⟨hlo, hhi⟩ := leftEdge_le hpos t
  rw [bucketEpoch_eq ht hpos]
  split_ifs with hstays
  · rw [add_zero]
    exact iff_of_true hlo hstays
  · exact iff_of_false (not_le.mpr hhi) hstays

end Epoch

/-! ## The enumeration -/

/-- The clipped buckets of consecutive epochs fill the window from the first edge on. -/
theorem fills_epochs (start : ℤ) {stop bucketS : ℤ} (hpos : 0 < bucketS) {first : ℤ} {n : ℕ}
    (hlast : stop ≤ (first + n * bucketS) * 1000000) :
    Tiling.Fills (min (max (first * 1000000) start) stop) stop
      ((epochs bucketS first n).map fun e =>
        (max (e * 1000000) start, min ((e + bucketS) * 1000000) stop)) := by
  induction n generalizing first with
  | zero =>
    rw [Nat.cast_zero, zero_mul, add_zero] at hlast
    exact min_eq_right (hlast.trans (le_max_left _ _))
  | succ n ih =>
    have hnext : stop ≤ (first + bucketS + n * bucketS) * 1000000 := by
      push_cast at hlast
      linarith
    have hrest := ih hnext
    have hstep : first * 1000000 < (first + bucketS) * 1000000 := by linarith
    rw [epochs, List.map_cons]
    generalize first * 1000000 = x at *
    generalize (first + bucketS) * 1000000 = y at *
    constructor
    · intro hlt
      dsimp only at hlt ⊢
      have hleft : max x start = min (max x start) stop := by omega
      have hright : min y stop = min (max y start) stop := by omega
      exact ⟨hleft, hright ▸ hrest⟩
    · intro hle
      dsimp only at hle
      have hsame : min (max x start) stop = min (max y start) stop := by omega
      rw [hsame]
      exact hrest

/-- Every epoch is a multiple of the width. -/
theorem dvd_of_mem_epochs {first : ℤ} {n : ℕ} (hfirst : bucketS ∣ first) {e : ℤ}
    (he : e ∈ epochs bucketS first n) : bucketS ∣ e := by
  obtain ⟨i, -, rfl⟩ := mem_epochs.mp he
  exact hfirst.add (Dvd.intro_left _ rfl)

/-- The buckets of consecutive epochs tile a window that starts in the first one and ends in the last
one. -/
theorem tilesWindow_epochs (hlt : start < stop) (hpos : 0 < bucketS) {first last : ℤ} {n : ℕ}
    (hdvd : bucketS ∣ first) (hn : last + bucketS = first + n * bucketS)
    (hfirst : first * 1000000 ≤ start ∧ start < (first + bucketS) * 1000000)
    (hlast : last * 1000000 < stop ∧ stop ≤ (last + bucketS) * 1000000) :
    TilesWindow start stop bucketS ((epochs bucketS first n).map (boundAt start stop bucketS)) := by
  have hmem {e : ℤ} (he : e ∈ epochs bucketS first n) : first ≤ e ∧ e ≤ last := by
    obtain ⟨i, hi, rfl⟩ := mem_epochs.mp he
    have hlow : 0 ≤ (i : ℤ) * bucketS := mul_nonneg (Int.natCast_nonneg i) hpos.le
    have hhigh : ((i : ℤ) + 1) * bucketS ≤ n * bucketS :=
      mul_le_mul_of_nonneg_right (by exact_mod_cast hi) hpos.le
    constructor <;> linarith
  have htiles : Tiling.Tiles start stop
      (((epochs bucketS first n).map (boundAt start stop bucketS)).map fun b => (b.left, b.right)) := by
    have hfills := fills_epochs start hpos (hn ▸ hlast.2)
    rw [max_eq_right hfirst.1, min_eq_left hlt.le] at hfills
    rw [List.map_map]
    refine hfills.tiles_of_forall fun p hp => ?_
    obtain ⟨e, he, rfl⟩ := List.mem_map.mp hp
    obtain ⟨hlow, hhigh⟩ := hmem he
    refine max_lt (lt_min ?_ ?_) (lt_min ?_ hlt)
    · linarith
    · linarith
    · linarith
  refine ⟨fun h => ?_, htiles, fun b hb t hleft hright => ?_⟩
  · rw [h] at htiles
    exact hlt.ne htiles
  · obtain ⟨e, he, rfl⟩ := List.mem_map.mp hb
    obtain ⟨k, rfl⟩ := dvd_of_mem_epochs hdvd he
    rw [boundAt, mul_comm bucketS k] at hleft hright ⊢
    exact (sqlEpoch_eq_iff hpos t).mpr
      ⟨(le_max_left _ _).trans hleft, hright.trans_le (min_le_left _ _)⟩

section Window

theorem inRange_pred {start stop : ℤ} (hstart : InRange start) (hstop : InRange stop)
    (hlt : start < stop) : InRange (stop - 1) := by
  have hstart := inRange_iff.mp hstart
  have hstop := inRange_iff.mp hstop
  rw [inRange_iff]
  omega

variable {start stop bucketS : ℤ} (hstart : InRange start) (hstop : InRange stop)
  (hlt : start < stop) (hpos : 0 < bucketS)
include hstart hstop hlt hpos

/-- A returned tiling shows that the ends of the window stay in their buckets. -/
theorem edgesExact_of_tilesWindow {bounds : List Bound}
    (hok : denseBucketBounds start stop bucketS = .ok bounds)
    (htiles : TilesWindow start stop bucketS bounds) : EdgesExact start stop bucketS := by
  rw [denseBucketBounds, if_neg (not_le.mpr hlt)] at hok
  have hok : boundsFrom start stop bucketS (bucketEpoch (stop - 1) bucketS)
      (bucketCount start stop bucketS) (bucketEpoch start bucketS) = .ok bounds := hok
  have hcount : bucketCount start stop bucketS ≠ 0 := by
    intro hzero
    rw [hzero] at hok
    cases hok
    exact htiles.ne_nil rfl
  have hle : bucketEpoch start bucketS ≤ bucketEpoch (stop - 1) bucketS := by
    by_contra hlater
    obtain ⟨n, hn⟩ := Nat.exists_eq_succ_of_ne_zero hcount
    rw [hn, boundsFrom, if_neg hlater] at hok
    cases hok
    exact htiles.ne_nil rfl
  have hn := lastEpoch_add_of_le hpos hle
  obtain ⟨hranges, rfl⟩ := (boundsFrom_eq_ok hpos hn).mp hok
  obtain ⟨n, hsucc⟩ := Nat.exists_eq_succ_of_ne_zero hcount
  rw [hsucc] at hn hranges htiles
  -- the first bucket starts with the window, so its edge is not later
  have hfirst : StaysInBucket bucketS start := by
    have hleft : max (bucketEpoch start bucketS * 1000000) start = start := htiles.tiles.1
    exact (bucketEpoch_le_iff hstart hpos).mp (max_eq_right_iff.mp hleft)
  -- the last bucket is not empty, so its edge is before the end
  have hmem : bucketEpoch (stop - 1) bucketS ∈ epochs bucketS (bucketEpoch start bucketS) (n + 1) := by
    refine mem_epochs.mpr ⟨n, Nat.lt_succ_self n, ?_⟩
    push_cast at hn
    linarith
  have hlast : StaysInBucket bucketS (stop - 1) := by
    have hne := htiles.tiles.lt_of_mem (List.mem_map_of_mem (List.mem_map_of_mem hmem))
    have hbefore : bucketEpoch (stop - 1) bucketS * 1000000 < stop :=
      (le_max_left _ _).trans_lt (hne.trans_le (min_le_right _ _))
    exact (bucketEpoch_le_iff (inRange_pred hstart hstop hlt) hpos).mp (Int.le_sub_one_of_lt hbefore)
  have hfirstEpoch := bucketEpoch_eq hstart hpos
  have hlastEpoch := bucketEpoch_eq (inRange_pred hstart hstop hlt) hpos
  rw [if_pos hfirst, add_zero] at hfirstEpoch
  rw [if_pos hlast, add_zero] at hlastEpoch
  refine ⟨hfirst, hlast, ?_, ?_⟩
  · rw [← hfirstEpoch]
    exact (hranges _ List.mem_cons_self).1.1
  · rw [← hlastEpoch]
    exact (hranges _ hmem).2.2

/-- When they stay there and the outer edges are datetimes, a tiling is returned. -/
theorem tilesWindow_of_edgesExact (h : EdgesExact start stop bucketS) :
    ∃ bounds, denseBucketBounds start stop bucketS = .ok bounds ∧
      TilesWindow start stop bucketS bounds := by
  have hfirst := bucketEpoch_eq hstart hpos
  have hlast := bucketEpoch_eq (inRange_pred hstart hstop hlt) hpos
  rw [if_pos h.start_stays, add_zero] at hfirst
  rw [if_pos h.stop_stays, add_zero] at hlast
  have hle : bucketEpoch start bucketS ≤ bucketEpoch (stop - 1) bucketS := by
    rw [hfirst, hlast]
    refine mul_le_mul_of_nonneg_right (Int.ediv_le_ediv hpos (Int.ediv_le_ediv (by norm_num) ?_)) hpos.le
    exact Int.le_sub_one_of_lt hlt
  have hn := lastEpoch_add_of_le hpos hle
  have hdvd : bucketS ∣ bucketEpoch start bucketS := Dvd.intro_left _ rfl
  have hstartEdges : bucketEpoch start bucketS * 1000000 ≤ start ∧
      start < (bucketEpoch start bucketS + bucketS) * 1000000 := by
    rw [hfirst]
    exact leftEdge_le hpos start
  have hstopEdges : bucketEpoch (stop - 1) bucketS * 1000000 < stop ∧
      stop ≤ (bucketEpoch (stop - 1) bucketS + bucketS) * 1000000 := by
    rw [hlast]
    have hedges := leftEdge_le hpos (stop - 1)
    exact ⟨hedges.1.trans_lt (sub_one_lt stop), Int.le_of_sub_one_lt hedges.2⟩
  refine ⟨_, ?_, tilesWindow_epochs hlt hpos hdvd hn hstartEdges hstopEdges⟩
  rw [denseBucketBounds, if_neg (not_le.mpr hlt)]
  refine (boundsFrom_eq_ok hpos hn).mpr ⟨fun e he => ?_, rfl⟩
  -- every edge lies between the outer ones
  obtain ⟨i, hi, rfl⟩ := mem_epochs.mp he
  have hlow : 0 ≤ (i : ℤ) * bucketS := mul_nonneg (Int.natCast_nonneg i) hpos.le
  have hhigh : ((i : ℤ) + 1) * bucketS ≤ bucketCount start stop bucketS * bucketS :=
    mul_le_mul_of_nonneg_right (by exact_mod_cast hi) hpos.le
  have hmin : (-62135596800000000 : ℤ) ≤ leftEdge bucketS start * 1000000 := h.first_range
  have hmax : (leftEdge bucketS (stop - 1) + bucketS) * 1000000 ≤ (253402300799999999 : ℤ) :=
    h.last_range
  rw [← hfirst] at hmin
  rw [← hlast] at hmax
  rw [inRange_iff, inRange_iff]
  constructor <;> constructor <;> linarith

end Window

/-- For every window the enumeration returns a tiling by buckets of the epochs of SQL exactly when the ends
of the window stay in their buckets and the outer edges of these are datetimes. A window without length
has no bucket. -/
theorem denseBucketBounds_tiles_iff (start stop bucketS : ℤ) (hstart : InRange start)
    (hstop : InRange stop) (hpos : 0 < bucketS) :
    (stop ≤ start → denseBucketBounds start stop bucketS = .ok []) ∧
      (start < stop →
        ((∃ bounds, denseBucketBounds start stop bucketS = .ok bounds ∧
          TilesWindow start stop bucketS bounds) ↔ EdgesExact start stop bucketS)) := by
  refine ⟨fun hle => if_pos hle, fun hlt => ⟨?_, tilesWindow_of_edgesExact hstart hstop hlt hpos⟩⟩
  rintro ⟨bounds, hok, htiles⟩
  exact edgesExact_of_tilesWindow hstart hstop hlt hpos hok htiles

/-- Two minutes that start and end in the middle of a bucket have three buckets, and both outer ones are
clipped. -/
theorem denseBucketBounds_tiles_minutes : ∃ bounds,
    denseBucketBounds 1786406430000000 1786406550000000 60 = .ok bounds ∧
      bounds.map Bound.left = [1786406430000000, 1786406460000000, 1786406520000000] ∧
      TilesWindow 1786406430000000 1786406550000000 60 bounds := by
  have hedges : EdgesExact 1786406430000000 1786406550000000 60 :=
    ⟨by decide +kernel, by decide +kernel, by decide +kernel, by decide +kernel⟩
  obtain ⟨bounds, hok, htiles⟩ := ((denseBucketBounds_tiles_iff 1786406430000000 1786406550000000 60
    (by decide) (by decide) (by decide)).2 (by decide)).mpr hedges
  have hlist : denseBucketBounds 1786406430000000 1786406550000000 60 =
      .ok [⟨1786406430000000, 1786406460000000, 1786406400⟩,
        ⟨1786406460000000, 1786406520000000, 1786406460⟩,
        ⟨1786406520000000, 1786406550000000, 1786406520⟩] := by decide +kernel
  obtain rfl := Except.ok.inj (hlist.symm.trans hok)
  exact ⟨_, hok, rfl, htiles⟩

/-- A second around the epoch: its first half is in no bucket. -/
theorem denseBucketBounds_not_tiles : InRange (-500000) ∧ InRange 500000 ∧
    denseBucketBounds (-500000) 500000 60 = .ok [⟨0, 500000, 0⟩] ∧
      ¬ ∃ bounds, denseBucketBounds (-500000) 500000 60 = .ok bounds ∧
        TilesWindow (-500000) 500000 60 bounds := by
  have hbounds : denseBucketBounds (-500000) 500000 60 = .ok [⟨0, 500000, 0⟩] := by decide +kernel
  refine ⟨by decide, by decide, hbounds, ?_⟩
  rintro ⟨bounds, hok, htiles⟩
  rw [hbounds] at hok
  cases hok
  exact absurd htiles.tiles.1 (by decide)

/-- Before the epoch a datetime rounds up exactly when it has a fraction. -/
theorem roundsUp_of_neg {t : ℤ} (h0 : t < 0) (h : -(2 ^ 34 * 1000000) < t) :
    RoundsUp t ↔ ¬ 1000000 ∣ t := by
  have hsmall : |t| < 2 ^ 53 * 1000000 := by
    rw [abs_of_neg h0]
    linarith
  rw [← wholeSeconds_of_neg h0 h, RoundsUp]
  exact ⟨fun hlt heq => hlt.ne' heq, fun hne => lt_of_le_of_ne (wholeSeconds_mem hsmall).1 (Ne.symm hne)⟩

/-- From the epoch to the year 2514 none does. -/
theorem not_roundsUp {t : ℤ} (h0 : 0 ≤ t) (h : t < 2 ^ 34 * 1000000) : ¬ RoundsUp t := by
  rw [RoundsUp, wholeSeconds_eq h0 h]
  exact lt_irrefl _

end Ghpulse.Dashboard
