import Ghpulse.Web.Payload
import Mathlib.Data.Int.ConditionallyCompleteOrder

/-!
# What the charts count

The buckets of a window fill it, so those that are left in milliseconds tile it. Only the last bucket can
be lost, when it starts in the millisecond in which the window ends, and the charts agree with the summary
exactly when it contains no counted row. Where the first edge lies after the start of the window, the rows
do not start where the range does, and are refused.

Reference: `backend/api_common.py`, `src/app.jsx`, `src/dashboard-charts.jsx`.
-/

open Python Js Ghpulse.Ingest Ghpulse.Web

namespace Ghpulse.Dashboard

/-! ## The condition

About the rows of the database and the window alone.
-/

/-- The start of the last bucket of a window. -/
def RangeWindow.lastStart (window : RangeWindow) : Instant :=
  max ((window.stop - 1) / (window.bucketS * 1000000) * (window.bucketS * 1000000)) window.start

/-- No counted row lies in an interval. -/
def NoRows (db : Db) (repository : Option Str) (start stop : Instant) : Prop :=
  ∀ panel, ∀ kind ∈ panel.keys, rowsIn db repository panel kind start stop = 0

/-- The charts of a window lose nothing: its last bucket ends in a later millisecond than it starts, or
contains no counted row. A window that starts before its first edge can only be shown empty. -/
def NothingLost (db : Db) (window : RangeWindow) (repository : Option Str) : Prop :=
  if window.firstEdge ≤ window.start then
    millis window.lastStart < millis window.stop ∨
      NoRows db repository window.lastStart window.stop
  else
    millis window.stop ≤ millis window.firstEdge ∧ NoRows db repository window.start window.stop

/-! ## The buckets of a window

Where datetimes are cut to milliseconds, a bucket may lose its length. A bucket that ends at an edge keeps
it, since edges are whole seconds; one that ends with the window may not.
-/

theorem millis_mono : Monotone millis := fun _ _ h => Int.ediv_le_ediv (by norm_num) h

/-- Between a datetime and a later edge a millisecond starts. -/
theorem millis_lt_of_lt_edge {t edge : ℤ} (h : t < edge * 1000000) : millis t < millis (edge * 1000000) := by
  unfold millis
  omega

section Window

variable (collate : Str → Str → Bool) (db : Db) {window : RangeWindow} (repository : Option Str)
  (startedAt : Instant) (panel : Panel)

/-- The ends of the buckets of a panel. -/
theorem ends_buckets : ((bodyOf collate db window repository startedAt window.bounds).buckets panel).map
      (fun b => (b.start, b.stop)) =
    (epochs window.bucketS (bucketEpoch window.start window.bucketS)
      (bucketCount window.start window.stop window.bucketS)).map fun e =>
        (max (e * 1000000) window.start, min ((e + window.bucketS) * 1000000) window.stop) := by
  show List.map _ (List.map _ (List.map _ _)) = _
  rw [List.map_map, List.map_map]
  rfl

/-- The ends of a bucket, with its left edge before clipping, a multiple of the width. -/
theorem exists_edge {b : Bucket}
    (hb : b ∈ (bodyOf collate db window repository startedAt window.bounds).buckets panel) :
    ∃ k : ℤ, b.start = max (k * (window.bucketS * 1000000)) window.start ∧
      b.stop = min ((k + 1) * (window.bucketS * 1000000)) window.stop := by
  have hends : (b.start, b.stop) ∈
      ((bodyOf collate db window repository startedAt window.bounds).buckets panel).map
        fun b => (b.start, b.stop) := List.mem_map_of_mem hb
  rw [ends_buckets] at hends
  obtain ⟨e, he, hpair⟩ := List.mem_map.mp hends
  obtain ⟨hstart, hstop⟩ := Prod.mk.inj hpair
  -- an epoch is a multiple of the width
  obtain ⟨k, rfl⟩ := dvd_of_mem_epochs (Dvd.intro_left _ rfl) he
  refine ⟨k, ?_, ?_⟩
  · rw [← hstart]
    ring_nf
  · rw [← hstop]
    ring_nf

/-- A bucket that collapses, though it is not empty, is the last one. -/
theorem eq_last_of_collapsed {b : Bucket}
    (hb : b ∈ (bodyOf collate db window repository startedAt window.bounds).buckets panel)
    (hlt : b.start < b.stop) (hcollapsed : millis b.stop ≤ millis b.start) :
    b.start = window.lastStart ∧ b.stop = window.stop := by
  obtain ⟨k, hstart, hstop⟩ := exists_edge collate db repository startedAt panel hb
  have hwidth : 0 < window.bucketS * 1000000 := mul_pos window.bucketS_pos (by norm_num)
  -- a right edge would start a millisecond of its own
  have hclipped : window.stop < (k + 1) * (window.bucketS * 1000000) := by
    by_contra hle
    rw [min_eq_left (not_lt.mp hle), ← mul_assoc] at hstop
    rw [hstop] at hlt hcollapsed
    exact absurd hcollapsed (not_le.mpr (millis_lt_of_lt_edge hlt))
  have hleft : k * (window.bucketS * 1000000) ≤ window.stop - 1 := by
    refine Int.le_sub_one_of_lt ?_
    calc k * (window.bucketS * 1000000) ≤ b.start := hstart ▸ le_max_left _ _
      _ < b.stop := hlt
      _ ≤ window.stop := hstop ▸ min_le_right _ _
  have hquot : (window.stop - 1) / (window.bucketS * 1000000) = k := by
    refine le_antisymm (Int.lt_add_one_iff.mp ?_) ((Int.le_ediv_iff_mul_le hwidth).mpr hleft)
    exact (Int.ediv_lt_iff_lt_mul hwidth).mpr ((sub_one_lt _).trans hclipped)
  constructor
  · rw [RangeWindow.lastStart, hquot, hstart]
  · rw [hstop, min_eq_right hclipped.le]

/-- An integer at most `n` after another one. -/
theorem exists_add_natCast {p q : ℤ} {n : ℕ} (hle : p ≤ q) (hlt : q < p + n) :
    ∃ i < n, q = p + (i : ℕ) :=
  ⟨(q - p).toNat, by omega, by omega⟩

/-- The last bucket of a window that does not start before its first edge. -/
theorem exists_last (h0 : 0 ≤ window.start) (hlt : window.start < window.stop)
    (hedge : window.firstEdge ≤ window.start) :
    ∃ b ∈ (bodyOf collate db window repository startedAt window.bounds).buckets panel,
      b.start = window.lastStart ∧ b.stop = window.stop := by
  have hwidth : 0 < window.bucketS * 1000000 := mul_pos window.bucketS_pos (by norm_num)
  have hlast := stop_le_lastEdge h0 hlt
  -- the first edge, the last one and the end of the window in widths
  obtain ⟨p, hp⟩ : ∃ p, bucketEpoch window.start window.bucketS = p * window.bucketS := ⟨_, rfl⟩
  have hfirst : p * (window.bucketS * 1000000) ≤ window.stop - 1 := by
    rw [← mul_assoc, ← hp]
    exact hedge.trans (Int.le_sub_one_of_lt hlt)
  have hend : window.stop ≤ (p + bucketCount window.start window.stop window.bucketS) *
      (window.bucketS * 1000000) := by
    rw [hp] at hlast
    linarith
  have hle : p ≤ (window.stop - 1) / (window.bucketS * 1000000) :=
    (Int.le_ediv_iff_mul_le hwidth).mpr hfirst
  have hcount : (window.stop - 1) / (window.bucketS * 1000000) <
      p + bucketCount window.start window.stop window.bucketS :=
    (Int.ediv_lt_iff_lt_mul hwidth).mpr ((sub_one_lt _).trans_le hend)
  have hnext := Int.lt_ediv_add_one_mul_self (window.stop - 1) hwidth
  rw [RangeWindow.lastStart]
  generalize (window.stop - 1) / (window.bucketS * 1000000) = q at *
  have hmem : q * window.bucketS ∈ epochs window.bucketS (bucketEpoch window.start window.bucketS)
      (bucketCount window.start window.stop window.bucketS) := by
    obtain ⟨i, hi, rfl⟩ := exists_add_natCast hle hcount
    refine mem_epochs.mpr ⟨i, hi, ?_⟩
    rw [hp]
    ring
  refine ⟨_, List.mem_map_of_mem (List.mem_map_of_mem hmem), ?_, min_eq_right ?_⟩
  · show max (q * window.bucketS * 1000000) window.start = _
    rw [mul_assoc]
  · show window.stop ≤ (q * window.bucketS + window.bucketS) * 1000000
    linarith [Int.le_of_sub_one_lt hnext]

/-- The buckets that are shown tile the window from its first edge on. -/
theorem tiles_shown (h0 : 0 ≤ window.start) (hlt : window.start < window.stop) :
    Tiling.Tiles (millis (min (max window.firstEdge window.start) window.stop) : ℚ) (millis window.stop)
      (((bodyOf collate db window repository startedAt window.bounds).shown panel).map Bucket.ends) := by
  have hmono : Monotone fun t : ℤ => (millis t : ℚ) := fun _ _ h => Int.cast_mono (millis_mono h)
  have hfills : Tiling.Fills (min (max window.firstEdge window.start) window.stop) window.stop
      (((bodyOf collate db window repository startedAt window.bounds).buckets panel).map
        fun b => (b.start, b.stop)) := by
    rw [ends_buckets]
    exact fills_epochs _ window.bucketS_pos (stop_le_lastEdge h0 hlt)
  have htiles := (hfills.map hmono).tiles
  rw [List.map_map, List.filter_map] at htiles
  have hfilter : ((bodyOf collate db window repository startedAt window.bounds).buckets panel).filter
      (fun b => decide ((millis b.start : ℚ) < millis b.stop)) =
        (bodyOf collate db window repository startedAt window.bounds).shown panel :=
    List.filter_congr fun b _ => decide_eq_decide.mpr Int.cast_lt
  exact hfilter ▸ htiles

/-- The buckets that are shown contain what the summary counts, unless a counted row lies in a last
bucket that collapses. -/
theorem totals_eq_sum_shown_iff (h0 : 0 ≤ window.start) (hlt : window.start < window.stop)
    (hedge : window.firstEdge ≤ window.start) {kind : Kind} (hkind : kind ∈ panel.keys) :
    (bodyOf collate db window repository startedAt window.bounds).totals panel kind =
        (((bodyOf collate db window repository startedAt window.bounds).shown panel).map
          fun b => b.counts kind).sum ↔
      millis window.lastStart < millis window.stop ∨
        rowsIn db repository panel kind window.lastStart window.stop = 0 := by
  have htotal := total_eq_gap_add_sum collate db repository startedAt h0 hlt hkind
  rw [rowsIn_eq_zero db repository panel kind ((min_le_left _ _).trans hedge), zero_add,
    ← List.sum_map_filter_add_sum_map_filter_not
      (fun b : Bucket => millis b.start < millis b.stop)] at htotal
  have hcounts {b : Bucket}
      (hb : b ∈ (bodyOf collate db window repository startedAt window.bounds).buckets panel) :
      b.counts kind = rowsIn db repository panel kind b.start b.stop :=
    counts_eq collate db repository startedAt hkind hb
  rw [Body.shown, htotal, Nat.add_eq_left, List.sum_eq_zero_iff_forall_eq_nat, List.forall_mem_map]
  constructor
  · intro hlost
    obtain ⟨b, hb, hstart, hstop⟩ := exists_last collate db repository startedAt panel h0 hlt hedge
    refine or_iff_not_imp_left.mpr fun hcollapsed => ?_
    rw [← hstart, ← hstop] at hcollapsed ⊢
    rw [← hcounts hb]
    exact hlost b (List.mem_filter.mpr ⟨hb, decide_eq_true hcollapsed⟩)
  · intro hlast b hb
    obtain ⟨hb, hcollapsed⟩ := List.mem_filter.mp hb
    have hcollapsed := not_lt.mp (of_decide_eq_true hcollapsed)
    rw [hcounts hb]
    -- a bucket without a datetime in it counts nothing anyway
    rcases le_or_gt b.stop b.start with hempty | hne
    · exact rowsIn_eq_zero db repository panel kind hempty
    obtain ⟨hstart, hstop⟩ := eq_last_of_collapsed collate db repository startedAt panel hb hne hcollapsed
    rw [hstart, hstop] at hcollapsed ⊢
    exact hlast.resolve_left (not_lt.mpr hcollapsed)

/-- From the first edge on, the buckets that are shown tile the range that the page shows. -/
theorem tiles_range (h0 : 0 ≤ window.start) (hlt : window.start < window.stop)
    (hedge : window.firstEdge ≤ window.start)
    (hne : (bodyOf collate db window repository startedAt window.bounds).shown panel ≠ []) :
    Tiling.Tiles (millis window.start : ℚ)
      (bodyOf collate db window repository startedAt window.bounds).shownStop
      (((bodyOf collate db window repository startedAt window.bounds).shown panel).map Bucket.ends) := by
  have htiles := tiles_shown collate db repository startedAt panel h0 hlt
  rw [max_eq_right hedge, min_eq_left hlt.le] at htiles
  have hends : (millis window.start : ℚ) ≠ millis window.stop := by
    refine fun h => hne (List.map_eq_nil_iff.mp (htiles.eq_nil_iff.mpr h))
  have hstop : (bodyOf collate db window repository startedAt window.bounds).shownStop =
      millis window.stop := if_pos (lt_of_le_of_ne htiles.le hends)
  rwa [hstop]

/-- A window that starts before its first edge shows no bucket if it ends in the millisecond of the edge
or before, and otherwise starts too late. -/
theorem shown_before_edge (h0 : 0 ≤ window.start) (hlt : window.start < window.stop)
    (hedge : window.start < window.firstEdge) :
    if millis window.stop ≤ millis window.firstEdge then
      (bodyOf collate db window repository startedAt window.bounds).shown panel = []
    else
      (bodyOf collate db window repository startedAt window.bounds).shown panel ≠ [] ∧
        ∀ stop : ℚ, ¬ Tiling.Tiles (millis window.start : ℚ) stop
          (((bodyOf collate db window repository startedAt window.bounds).shown panel).map Bucket.ends) := by
  have htiles := tiles_shown collate db repository startedAt panel h0 hlt
  rw [max_eq_left hedge.le] at htiles
  have hmin : millis (min window.firstEdge window.stop) =
      min (millis window.firstEdge) (millis window.stop) := millis_mono.map_min
  rw [hmin] at htiles
  split_ifs with hcollapsed
  · rw [min_eq_right hcollapsed] at htiles
    exact List.map_eq_nil_iff.mp (htiles.eq_nil_iff.mpr rfl)
  · have hlate := not_le.mp hcollapsed
    rw [min_eq_left hlate.le] at htiles
    have hne : ((bodyOf collate db window repository startedAt window.bounds).shown panel).map
        Bucket.ends ≠ [] := fun h => (Int.cast_lt.mpr hlate).ne (htiles.eq_nil_iff.mp h)
    refine ⟨fun h => hne (by rw [h]; rfl), fun stop h => ?_⟩
    have hsame : (millis window.firstEdge : ℚ) = millis window.start := ((htiles.iff hne).mp h).1
    have hbefore : millis window.start < millis window.firstEdge := millis_lt_of_lt_edge hedge
    exact hbefore.ne' (Int.cast_inj.mp hsame)

end Window

/-! ## Agreement

Each chart counts what its shown buckets count, and the summary what lies in the window.
-/

/-- The charts of a body after the epoch are drawn and agree with its summary exactly when nothing is
lost. -/
theorem chartsAgree_iff (js : Runtime) (collate : Str → Str → Bool) (db : Db) (window : RangeWindow)
    (repository : Option Str) (startedAt : Instant) (body : Body) (h0 : 0 ≤ window.start)
    (hlt : window.start < window.stop)
    (hbody : dashboardBuild collate db window repository startedAt = .ok body)
    (hreads : ∀ t ∈ body.timestamps, ReadsMillis js t) :
    ChartsAgree js body.toJson ↔ NothingLost db window repository := by
  obtain ⟨-, rfl⟩ := (dashboardBuild_eq_ok collate db repository startedAt h0 hlt).mp hbody
  rw [chartsAgree_toJson_iff window.bucketS_pos hreads]
  unfold NothingLost
  split_ifs with hedge
  · have htotals (panel : Panel) {kind : Kind} (hkind : kind ∈ panel.keys) :=
      totals_eq_sum_shown_iff collate db repository startedAt panel h0 hlt hedge hkind
    constructor
    · intro h
      refine or_iff_not_imp_left.mpr fun hcollapsed panel kind hkind => ?_
      exact ((htotals panel hkind).mp ((h panel).2 kind hkind)).resolve_left hcollapsed
    · intro h panel
      refine ⟨tiles_range collate db repository startedAt panel h0 hlt hedge, fun kind hkind => ?_⟩
      exact (htotals panel hkind).mpr (h.imp_right fun hnone => hnone panel kind hkind)
  · have hshown (panel : Panel) :=
      shown_before_edge collate db repository startedAt panel h0 hlt (not_le.mp hedge)
    have htotal (panel : Panel) {kind : Kind} (hkind : kind ∈ panel.keys) :
        (bodyOf collate db window repository startedAt window.bounds).totals panel kind =
          rowsIn db repository panel kind window.start window.stop :=
      totals_eq collate db window repository hkind
    by_cases hcollapsed : millis window.stop ≤ millis window.firstEdge
    · simp only [if_pos hcollapsed] at hshown
      simp only [hshown, List.map_nil, List.sum_nil, ne_eq, not_true_eq_false, false_implies, true_and]
      refine ⟨fun h => ⟨hcollapsed, fun panel kind hkind => ?_⟩, fun h panel kind hkind => ?_⟩
      · rw [← htotal panel hkind, h panel kind hkind]
      · rw [htotal panel hkind, h.2 panel kind hkind]
    · simp only [if_neg hcollapsed] at hshown
      refine iff_of_false (fun h => ?_) fun h => hcollapsed h.1
      exact (hshown .issues).2 _ ((h .issues).1 (hshown .issues).1)

/-! ## A runtime

A concrete reading of ISO texts, on which the condition can be seen to hold and to fail.
-/

/-- The number at a fixed place of a text. -/
def digitsAt (s : Str) (place count : ℕ) : ℕ :=
  ((s.drop place).take count).foldl (fun n c => n * 10 + (c.val - 0x30)) 0

/-- The days since the epoch of a date. -/
def daysOf (year month day : ℕ) : ℤ :=
  let y := if month ≤ 2 then year - 1 else year
  let dayOfYear := (153 * ((month + 9) % 12) + 2) / 5 + day - 1
  (y / 400 * 146097 + (y % 400 * 365 + y % 400 / 4 - y % 400 / 100 + dayOfYear) : ℕ) - 719468

/-- `Date.parse` of an ISO text in UTC: digits of the fraction after the third are dropped. -/
def parseIso (s : Str) : Number :=
  let seconds := daysOf (digitsAt s 0 4) (digitsAt s 5 2) (digitsAt s 8 2) * 86400 +
    (digitsAt s 11 2 * 3600 + digitsAt s 14 2 * 60 + digitsAt s 17 2 : ℕ)
  .finite (seconds * 1000 + (if s[19]? = some (cp '.') then digitsAt s 20 3 else 0 : ℕ) : ℤ)

/-- A runtime that reads ISO texts. -/
def isoRuntime : Runtime := ⟨fun _ => .nan, fun _ => lit "[object Object]", parseIso, 0⟩

instance (js : Runtime) (t : Instant) : Decidable (ReadsMillis js t) :=
  inferInstanceAs (Decidable (_ = _))

/-- A minute that ends half a millisecond after a bucket edge. -/
def splitMinute : RangeWindow :=
  ⟨lit "all", 1786406340000000, 1786406400000500, 60, by decide, by decide, alignedMinute.bucketS_pos⟩

/-- The charts of an aligned minute agree with its summary. -/
theorem alignedMinute_chartsAgree : ∃ body,
    dashboardBuild (fun _ _ => true) (oneIssue 1786406400000000) alignedMinute none 0 = .ok body ∧
      ChartsAgree isoRuntime body.toJson := by
  have h0 : 0 ≤ alignedMinute.start := by decide
  have hlt : alignedMinute.start < alignedMinute.stop := by decide
  have hbody := (dashboardBuild_eq_ok (fun _ _ => true) (oneIssue 1786406400000000) none 0 h0 hlt).mpr
    ⟨by decide +kernel, rfl⟩
  have hlost : NothingLost (oneIssue 1786406400000000) alignedMinute none := by
    rw [NothingLost, if_pos (by decide +kernel)]
    exact Or.inl (by decide +kernel)
  exact ⟨_, hbody, (chartsAgree_iff isoRuntime (fun _ _ => true) _ _ none 0 _ h0 hlt hbody
    (by decide +kernel)).mpr hlost⟩

/-- Those of the split minute do not: the last bucket lies within one millisecond, and its event is in the
summary and not in the chart. -/
theorem splitMinute_not_chartsAgree : 0 ≤ splitMinute.start ∧ splitMinute.start < splitMinute.stop ∧
    splitMinute.bucketS ∈ bucketCandidates ∧ ∃ body,
      dashboardBuild (fun _ _ => true) (oneIssue 1786406400000000) splitMinute none 0 = .ok body ∧
        (∀ t ∈ body.timestamps, ReadsMillis isoRuntime t) ∧ ¬ ChartsAgree isoRuntime body.toJson := by
  have h0 : 0 ≤ splitMinute.start := by decide
  have hlt : splitMinute.start < splitMinute.stop := by decide
  have hopened : Kind.opened ∈ Panel.issues.keys := by decide
  have hreads : ∀ t ∈ (bodyOf (fun _ _ => true) (oneIssue 1786406400000000) splitMinute none 0
      splitMinute.bounds).timestamps, ReadsMillis isoRuntime t := by
    decide +kernel
  refine ⟨h0, hlt, by decide, _, (dashboardBuild_eq_ok (fun _ _ => true) _ none 0 h0 hlt).mpr
    ⟨by decide +kernel, rfl⟩, hreads, fun hagree => ?_⟩
  have htotal := ((chartsAgree_toJson_iff splitMinute.bucketS_pos hreads).mp hagree .issues).2 _ hopened
  rw [totals_eq_sum_shown_iff (fun _ _ => true) _ none 0 .issues h0 hlt (by decide +kernel) hopened]
    at htotal
  revert htotal
  decide +kernel

end Ghpulse.Dashboard
