import Ghpulse.Dashboard.Counting

/-!
# Exact bucket counts

SQL assigns an event to a bucket by exact division; Python enumerates the buckets with `epoch_seconds`,
which goes through a `float`. Every bucket of a response counts the rows between its edges, and the
buckets reach from the first edge to the end of the window, so the totals are the sums of the buckets
exactly when no counted row lies between the start of the window and the first edge. There is such a gap
only where the `float` carries the start of the window into the next bucket.

The plan of the proof: `rowsIn` is additive over intervals, so the clipped buckets of consecutive epochs
add up to the interval from the first edge to the last (`sum_epochs`). The last edge is never before the
end of the window, and the first one is after its start only if `epoch_seconds` was carried over an edge.

Reference: `backend/api_dashboard.py`, `backend/api_common.py`.
-/

open Python Ghpulse.Ingest

namespace Ghpulse.Dashboard

/-! ## The statement

Exactness is a property of one series: every bucket counts the rows between its own edges, the total
counts those of the window, and the total is the sum of the buckets. A build that raises is not exact.
-/

/-- The counts of one series of a body are exact. -/
structure SeriesExact (db : Db) (window : RangeWindow) (repository : Option Str) (body : Body)
    (panel : Panel) (kind : Kind) : Prop where
  buckets : ∀ b ∈ body.buckets panel,
    b.counts kind = rowsIn db repository panel kind b.start b.stop
  total : body.totals panel kind = rowsIn db repository panel kind window.start window.stop
  sum : body.totals panel kind = ((body.buckets panel).map fun b => b.counts kind).sum

/-- The build returns a body with exact counts. -/
def ExactCounts (collate : Str → Str → Bool) (db : Db) (window : RangeWindow)
    (repository : Option Str) (startedAt : Instant) : Prop :=
  ∃ body, dashboardBuild collate db window repository startedAt = .ok body ∧
    ∀ panel, ∀ kind ∈ panel.keys, SeriesExact db window repository body panel kind

/-- The right edge of the last bucket is a datetime. -/
def RangeWindow.Enumerable (window : RangeWindow) : Prop :=
  (bucketEpoch (window.stop - 1) window.bucketS + window.bucketS) * 1000000 ≤ maxInstant

instance (window : RangeWindow) : Decidable window.Enumerable :=
  inferInstanceAs (Decidable (_ ≤ _))

/-- The left edge of the first bucket, before it is clipped. -/
def RangeWindow.firstEdge (window : RangeWindow) : Instant :=
  bucketEpoch window.start window.bucketS * 1000000

/-- The counts of a body are the sums of the counts of the bodies of the single repositories. -/
def AdditiveOver (db : Db) (body : Body) (bodies : Str → Body) (panel : Panel) (kind : Kind) : Prop :=
  body.totals panel kind =
      (db.repositories.rows.map fun r => (bodies r.nodeId).totals panel kind).sum ∧
    ∀ (i : ℕ) (b : Bucket), (body.buckets panel)[i]? = some b → b.counts kind =
      (db.repositories.rows.map fun r =>
        (((bodies r.nodeId).buckets panel)[i]?).elim 0 fun (b : Bucket) => b.counts kind).sum

/-! ## Counts of intervals

Counts are sums of indicators, so these are identities about half-open intervals.
-/

section Intervals

variable (db : Db) (repository : Option Str) (panel : Panel) (kind : Kind)

/-- Intervals that split an interval split its count. -/
theorem rowsIn_split {a b c d start stop : Instant}
    (h : ∀ t, (if a ≤ t ∧ t < b then 1 else 0) + (if c ≤ t ∧ t < d then 1 else 0) =
      if start ≤ t ∧ t < stop then 1 else 0) :
    rowsIn db repository panel kind a b + rowsIn db repository panel kind c d =
      rowsIn db repository panel kind start stop := by
  rw [← countP_eventUnion, ← countP_eventUnion, ← countP_eventUnion]
  have hsum := Grouping.sum_countP (eventUnion db) (isCounted repository panel kind start stop)
    [isCounted repository panel kind a b, isCounted repository panel kind c d] (by
      intro e _
      cases ht : e.eventAt with
      | none => simp [isCounted, inside, ht]
      | some t =>
        have hcounted (a b : Instant) : isCounted repository panel kind a b e =
            ((decide (e.panel = panel ∧ e.kind = kind) && inScope repository e.repositoryId) &&
              decide (a ≤ t ∧ t < b)) := by
          simp [isCounted, inside, ht]
        simp only [List.countP_cons, List.countP_nil, hcounted]
        cases decide (e.panel = panel ∧ e.kind = kind) && inScope repository e.repositoryId with
        | false => rfl
        | true => simpa [Nat.add_comm] using h t)
  simpa using hsum

/-- An empty interval contains no row. -/
theorem rowsIn_eq_zero {start stop : Instant} (h : stop ≤ start) :
    rowsIn db repository panel kind start stop = 0 := by
  rw [← countP_eventUnion, List.countP_eq_zero]
  intro e _ hcounted
  rw [isCounted, Bool.and_eq_true] at hcounted
  obtain ⟨t, -, hlo, hhi⟩ := inside_iff.mp hcounted.2
  exact absurd (hhi.trans_le h) (not_lt.mpr hlo)

/-- The clipped buckets of consecutive epochs count what lies from the first edge to the last one. -/
theorem sum_epochs (start stop bucketS : ℤ) (hpos : 0 < bucketS) (first : ℤ) (n : ℕ) :
    ((epochs bucketS first n).map fun e =>
        rowsIn db repository panel kind (max (e * 1000000) start)
          (min ((e + bucketS) * 1000000) stop)).sum =
      rowsIn db repository panel kind (max (first * 1000000) start)
        (min ((first + n * bucketS) * 1000000) stop) := by
  induction n generalizing first with
  | zero =>
    rw [Nat.cast_zero, zero_mul, add_zero, rowsIn_eq_zero]
    · rfl
    · exact (min_le_left _ _).trans (le_max_left _ _)
  | succ n ih =>
    rw [epochs, List.map_cons, List.sum_cons, ih]
    refine rowsIn_split db repository panel kind fun t => ?_
    have hn : 0 ≤ (n : ℤ) * bucketS := mul_nonneg (Int.natCast_nonneg n) hpos.le
    have hlast : first + bucketS + n * bucketS = first + (n + 1 : ℕ) * bucketS := by
      push_cast
      ring
    have hstep : first * 1000000 ≤ (first + bucketS) * 1000000 := by linarith
    have hrest : (first + bucketS) * 1000000 ≤ (first + (n + 1 : ℕ) * bucketS) * 1000000 := by
      rw [← hlast]
      linarith
    rw [hlast]
    generalize first * 1000000 = x at *
    generalize (first + bucketS) * 1000000 = y at *
    generalize (first + (n + 1 : ℕ) * bucketS) * 1000000 = z at *
    have hsplit (t : ℤ) :
        (if max x start ≤ t ∧ t < min y stop then 1 else 0) +
            (if max y start ≤ t ∧ t < min z stop then 1 else 0) =
          if max x start ≤ t ∧ t < min z stop then 1 else 0 := by
      split_ifs <;> omega
    exact hsplit t

end Intervals

/-! ## The buckets of a window

Here the enumeration and the folded rows meet: the epochs of SQL that fall into the window are those of
the enumerated buckets, up to the gap before the first edge.
-/

/-- The bounds of a window after the epoch. -/
def RangeWindow.bounds (window : RangeWindow) : List Bound :=
  (epochs window.bucketS (bucketEpoch window.start window.bucketS)
    (bucketCount window.start window.stop window.bucketS)).map
    (boundAt window.start window.stop window.bucketS)

section Window

variable (collate : Str → Str → Bool) (db : Db) {window : RangeWindow} (repository : Option Str)
  (startedAt : Instant) (h0 : 0 ≤ window.start) (hlt : window.start < window.stop)
include h0 hlt

/-- The build returns exactly when the right edge of the last bucket is a datetime. -/
theorem dashboardBuild_eq_ok {body : Body} :
    dashboardBuild collate db window repository startedAt = .ok body ↔
      window.Enumerable ∧ body = bodyOf collate db window repository startedAt window.bounds := by
  have hbounds {bounds : List Bound} :
      denseBucketBounds window.start window.stop window.bucketS = .ok bounds ↔
        window.Enumerable ∧ bounds = window.bounds :=
    denseBucketBounds_eq_ok h0 hlt window.stop_range.2 window.bucketS_pos
  rw [dashboardBuild_eq]
  constructor
  · intro h
    cases hok : denseBucketBounds window.start window.stop window.bucketS with
    | error e =>
      rw [hok] at h
      cases h
    | ok bounds =>
      rw [hok] at h
      cases h
      obtain ⟨henumerable, rfl⟩ := hbounds.mp hok
      exact ⟨henumerable, rfl⟩
  · rintro ⟨henumerable, rfl⟩
    rw [hbounds.mpr ⟨henumerable, rfl⟩]
    rfl

/-- The buckets reach the end of the window. -/
theorem stop_le_lastEdge : window.stop ≤
    (bucketEpoch window.start window.bucketS +
      bucketCount window.start window.stop window.bucketS * window.bucketS) * 1000000 := by
  rw [← lastEpoch_add h0 hlt window.bucketS_pos]
  refine Int.le_of_sub_one_lt (lt_bucketEpoch_add ?_ ?_ window.bucketS_pos)
  · exact Int.le_sub_one_of_lt (lt_of_le_of_lt h0 hlt)
  · exact (Int.sub_le_self _ (by norm_num)).trans window.stop_range.2

omit h0 hlt

variable {panel : Panel} {kind : Kind} (hkind : kind ∈ panel.keys)
include hkind

/-- The count of an epoch of the window is the number of rows in its clipped bucket. -/
theorem byEpoch_of_mem {e : ℤ}
    (he : e ∈ epochs window.bucketS (bucketEpoch window.start window.bucketS)
      (bucketCount window.start window.stop window.bucketS)) :
    (panelFold collate db window repository panel).byEpoch e kind =
      rowsIn db repository panel kind (max (e * 1000000) window.start)
        (min ((e + window.bucketS) * 1000000) window.stop) := by
  obtain ⟨i, -, rfl⟩ := mem_epochs.mp he
  have hepoch : bucketEpoch window.start window.bucketS + i * window.bucketS =
      (epochSeconds window.start / window.bucketS + i) * window.bucketS := by
    unfold bucketEpoch
    ring
  rw [hepoch]
  exact byEpoch_eq collate db window repository hkind _

/-- Every bucket counts the rows between its edges. -/
theorem counts_eq {b : Bucket}
    (hb : b ∈ (bodyOf collate db window repository startedAt window.bounds).buckets panel) :
    b.counts kind = rowsIn db repository panel kind b.start b.stop := by
  obtain ⟨bound, hbound, rfl⟩ := List.mem_map.mp hb
  obtain ⟨e, he, rfl⟩ := List.mem_map.mp hbound
  exact byEpoch_of_mem collate db repository hkind he

include h0 hlt

/-- The buckets add up to the rows from the first edge on. -/
theorem sum_counts :
    (((bodyOf collate db window repository startedAt window.bounds).buckets panel).map
        fun b => b.counts kind).sum =
      rowsIn db repository panel kind (max window.firstEdge window.start) window.stop := by
  have hcounts : ((bodyOf collate db window repository startedAt window.bounds).buckets panel).map
      (fun b => b.counts kind) =
      (epochs window.bucketS (bucketEpoch window.start window.bucketS)
        (bucketCount window.start window.stop window.bucketS)).map fun e =>
          rowsIn db repository panel kind (max (e * 1000000) window.start)
            (min ((e + window.bucketS) * 1000000) window.stop) := by
    show List.map _ (List.map _ (List.map _ _)) = _
    rw [List.map_map, List.map_map]
    exact List.map_congr_left fun e he => byEpoch_of_mem collate db repository hkind he
  rw [hcounts, sum_epochs db repository panel kind _ _ _ window.bucketS_pos,
    min_eq_right (stop_le_lastEdge h0 hlt)]
  rfl

/-- The total is the sum of the buckets and of the rows before the first edge. -/
theorem total_eq_gap_add_sum :
    (bodyOf collate db window repository startedAt window.bounds).totals panel kind =
      rowsIn db repository panel kind window.start (min window.firstEdge window.stop) +
        (((bodyOf collate db window repository startedAt window.bounds).buckets panel).map
          fun b => b.counts kind).sum := by
  rw [sum_counts collate db repository startedAt h0 hlt hkind]
  have hsplit (t : ℤ) (edge start stop : ℤ) :
      (if start ≤ t ∧ t < min edge stop then 1 else 0) +
          (if max edge start ≤ t ∧ t < stop then 1 else 0) =
        if start ≤ t ∧ t < stop then 1 else 0 := by
    split_ifs <;> omega
  rw [rowsIn_split db repository panel kind fun t => hsplit t window.firstEdge window.start window.stop]
  exact totals_eq collate db window repository hkind

end Window

/-! ## Repositories -/

/-- A row of a table is in the scope of exactly one stored repository. -/
theorem rowsWith_additive {ρ : Type} {db : Db} {c : Columns ρ} {items : List ρ}
    (h : Stored db c items) (time : ρ → Option Instant) (start stop : Instant) :
    rowsWith db c items time none start stop =
      (db.repositories.rows.map fun r =>
        rowsWith db c items time (some r.nodeId) start stop).sum := by
  simp only [rowsWith_eq h]
  have hsum := Grouping.sum_countP items
    (fun x => inScope none (c.repositoryId x) && inside start stop (time x))
    (db.repositories.rows.map fun r x =>
      inScope (some r.nodeId) (c.repositoryId x) && inside start stop (time x)) (by
      intro x hx
      rw [List.countP_map]
      cases hinside : inside start stop (time x) with
      | false => simp [Function.comp_def, hinside]
      | true =>
        have hone := Keyed.Table.countP_key (h x hx).1
        simp only [Function.comp_def, hinside, Bool.and_true]
        refine Eq.trans (List.countP_congr fun r _ => ?_) hone
        rw [inScope, Option.all_some, decide_eq_true_eq, decide_eq_true_eq]
        exact eq_comm)
  rw [← hsum, List.map_map]
  rfl

/-- The count of an interval is the sum of its counts for the single repositories. -/
theorem rowsIn_additive (db : Db) (panel : Panel) (kind : Kind) (start stop : Instant) :
    rowsIn db none panel kind start stop =
      (db.repositories.rows.map fun r =>
        rowsIn db (some r.nodeId) panel kind start stop).sum := by
  cases panel with
  | issues => exact rowsWith_additive (stored_issues db) _ start stop
  | pullRequests => exact rowsWith_additive (stored_pullRequests db) _ start stop

/-- The counts of the bodies over one window are additive over the stored repositories. -/
theorem additiveOver_of_built {collate : Str → Str → Bool} {db : Db} {window : RangeWindow}
    {startedAt : Instant} (h0 : 0 ≤ window.start) (hlt : window.start < window.stop) {body : Body}
    {bodies : Str → Body} (hbody : dashboardBuild collate db window none startedAt = .ok body)
    (hbodies : ∀ r ∈ db.repositories.rows,
      dashboardBuild collate db window (some r.nodeId) startedAt = .ok (bodies r.nodeId))
    {panel : Panel} {kind : Kind} (hkind : kind ∈ panel.keys) :
    AdditiveOver db body bodies panel kind := by
  have hbuilt (r : Repository) (hr : r ∈ db.repositories.rows) : bodies r.nodeId =
      bodyOf collate db window (some r.nodeId) startedAt window.bounds :=
    ((dashboardBuild_eq_ok collate db _ startedAt h0 hlt).mp (hbodies r hr)).2
  obtain ⟨-, rfl⟩ := (dashboardBuild_eq_ok collate db _ startedAt h0 hlt).mp hbody
  constructor
  · have htotals (r : Repository) (hr : r ∈ db.repositories.rows) :
        (bodies r.nodeId).totals panel kind =
          rowsIn db (some r.nodeId) panel kind window.start window.stop := by
      rw [hbuilt r hr]
      exact totals_eq collate db window _ hkind
    rw [List.map_congr_left htotals, ← rowsIn_additive]
    exact totals_eq collate db window _ hkind
  · intro i b hb
    -- the bodies have the same bounds
    have hbound : ∃ bound, window.bounds[i]? = some bound ∧ b =
        ⟨bound.left, bound.right,
          (panelFold collate db window none panel).byEpoch bound.epoch⟩ := by
      have hmap : (window.bounds.map _)[i]? = some b := hb
      rw [List.getElem?_map] at hmap
      obtain ⟨bound, hbound, rfl⟩ := Option.map_eq_some_iff.mp hmap
      exact ⟨bound, hbound, rfl⟩
    obtain ⟨bound, hbound, rfl⟩ := hbound
    have hmem : bound ∈ window.bounds := List.mem_of_getElem? hbound
    have hcount (repository : Option Str) :
        (panelFold collate db window repository panel).byEpoch bound.epoch kind =
          rowsIn db repository panel kind bound.left bound.right :=
      counts_eq collate db repository startedAt hkind (List.mem_map_of_mem hmem)
    have hcounts (r : Repository) (hr : r ∈ db.repositories.rows) :
        ((((bodies r.nodeId).buckets panel)[i]?).elim 0 fun (b : Bucket) => b.counts kind) =
          rowsIn db (some r.nodeId) panel kind bound.left bound.right := by
      rw [hbuilt r hr, ← hcount]
      show ((window.bounds.map _)[i]?).elim 0 _ = _
      rw [List.getElem?_map, hbound]
      rfl
    rw [List.map_congr_left hcounts, ← rowsIn_additive]
    exact hcount none

/-! ## Exactness

The condition names what can go wrong on the way: the right edge of the last bucket is no datetime, or
something counted lies in the gap. The second needs a start after 2514 with a fraction that is lost in the
rounding.
-/

/-- The counts are exact if and only if the bounds can be enumerated and nothing lies in the gap. -/
theorem exactCounts_iff_gap (collate : Str → Str → Bool) (db : Db) {window : RangeWindow}
    (repository : Option Str) (startedAt : Instant) (h0 : 0 ≤ window.start)
    (hlt : window.start < window.stop) :
    ExactCounts collate db window repository startedAt ↔
      window.Enumerable ∧ ∀ panel, ∀ kind ∈ panel.keys,
        rowsIn db repository panel kind window.start (min window.firstEdge window.stop) = 0 := by
  constructor
  · rintro ⟨body, hbody, hexact⟩
    obtain ⟨henumerable, rfl⟩ := (dashboardBuild_eq_ok collate db repository startedAt h0 hlt).mp hbody
    refine ⟨henumerable, fun panel kind hkind => ?_⟩
    have hsum := (hexact panel kind hkind).sum
    have htotal := total_eq_gap_add_sum collate db repository startedAt h0 hlt hkind
    omega
  · rintro ⟨henumerable, hgap⟩
    refine ⟨_, (dashboardBuild_eq_ok collate db repository startedAt h0 hlt).mpr ⟨henumerable, rfl⟩,
      fun panel kind hkind => ⟨?_, ?_, ?_⟩⟩
    · exact fun b hb => counts_eq collate db repository startedAt hkind hb
    · exact totals_eq collate db window repository hkind
    · rw [total_eq_gap_add_sum collate db repository startedAt h0 hlt hkind, hgap panel kind hkind,
        Nat.zero_add]

/-- Before the year 2514 there is no gap: the counts of every window that can be enumerated are exact. -/
theorem exactCounts_of_lt (collate : Str → Str → Bool) (db : Db) {window : RangeWindow}
    (repository : Option Str) (startedAt : Instant) (h0 : 0 ≤ window.start)
    (hlt : window.start < window.stop) (hyear : window.start < 2 ^ 34 * 1000000)
    (henumerable : window.Enumerable) : ExactCounts collate db window repository startedAt := by
  have hedge : window.firstEdge ≤ window.start := bucketEpoch_le h0 hyear window.bucketS_pos
  refine (exactCounts_iff_gap collate db repository startedAt h0 hlt).mpr ⟨henumerable, ?_⟩
  exact fun panel kind _ => rowsIn_eq_zero db repository panel kind ((min_le_left _ _).trans hedge)

/-- The counts of a window after the epoch are exact if and only if the right edge of its last bucket is
a datetime and no counted row lies in the window before the first edge. They are additive over the
repositories in any case. -/
theorem dashboardBuild_exact_iff (collate : Str → Str → Bool) (db : Db) (window : RangeWindow)
    (repository : Option Str) (startedAt : Instant) (h0 : 0 ≤ window.start)
    (hlt : window.start < window.stop) :
    (ExactCounts collate db window repository startedAt ↔
      window.Enumerable ∧ ∀ panel, ∀ kind ∈ panel.keys,
        rowsIn db repository panel kind window.start (min window.firstEdge window.stop) = 0) ∧
    ∀ (body : Body) (bodies : Str → Body),
      dashboardBuild collate db window none startedAt = .ok body →
      (∀ r ∈ db.repositories.rows,
        dashboardBuild collate db window (some r.nodeId) startedAt = .ok (bodies r.nodeId)) →
      ∀ panel, ∀ kind ∈ panel.keys, AdditiveOver db body bodies panel kind :=
  ⟨exactCounts_iff_gap collate db repository startedAt h0 hlt,
    fun _ _ hbody hbodies _ _ hkind => additiveOver_of_built h0 hlt hbody hbodies hkind⟩

/-- A database with one open issue, created at a given time. -/
def oneIssue (createdAt : Instant) : Db where
  repositories :=
    ⟨[⟨lit "R", lit "org/r", lit "org", lit "u", false, true, 0, 0⟩], by decide, by decide⟩
  issues :=
    ⟨[⟨lit "I", lit "R", 7, lit "v", false, createdAt, createdAt, none, lit "OPEN", none⟩],
      List.nodup_singleton _, fun r hr => by
        obtain rfl := List.mem_singleton.mp hr
        rfl⟩
  pullRequests := .empty
  ingestRuns := .empty
  syncState := none
  issues_fk := fun r hr => by
    obtain rfl := List.mem_singleton.mp hr
    rfl
  pullRequests_fk := fun _ h => absurd h List.not_mem_nil

/-- A minute that starts on a bucket edge. -/
def alignedMinute : RangeWindow :=
  ⟨lit "all", 1786406400000000, 1786406460000000, 60, by decide, by decide, by decide⟩

/-- A minute that starts a microsecond before a bucket edge of the year 2514. -/
def lateMinute : RangeWindow :=
  ⟨lit "all", 17179869239999999, 17179869299999999, 60, by decide, by decide, by decide⟩

/-- The counts of an aligned minute are exact. -/
theorem alignedMinute_exact :
    ExactCounts (fun _ _ => true) (oneIssue 1786406400000000) alignedMinute none 0 :=
  (dashboardBuild_exact_iff (fun _ _ => true) (oneIssue 1786406400000000) alignedMinute none 0
    (by decide) (by decide)).1.mpr
    ⟨by decide +kernel, fun _ _ _ => rowsIn_eq_zero _ _ _ _ (by decide +kernel)⟩

/-- The counts of the late minute are not: an event at its start is in the total and in no bucket. -/
theorem lateMinute_not_exact :
    0 ≤ lateMinute.start ∧ lateMinute.start < lateMinute.stop ∧
      ¬ ExactCounts (fun _ _ => true) (oneIssue 17179869239999999) lateMinute none 0 := by
  have h0 : 0 ≤ lateMinute.start := by decide
  have hlt : lateMinute.start < lateMinute.stop := by decide
  have hopened : Kind.opened ∈ Panel.issues.keys := by decide
  refine ⟨h0, hlt, ?_⟩
  rintro ⟨body, hbody, hexact⟩
  obtain ⟨-, rfl⟩ := (dashboardBuild_eq_ok (fun _ _ => true) _ none 0 h0 hlt).mp hbody
  have hseries := hexact .issues .opened hopened
  have hsum := sum_counts (fun _ _ => true) (oneIssue 17179869239999999) none 0 h0 hlt hopened
  rw [← hseries.sum, hseries.total] at hsum
  -- one row in the window, none from the first edge on
  revert hsum
  decide +kernel

end Ghpulse.Dashboard
