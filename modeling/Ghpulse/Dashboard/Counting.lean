import Ghpulse.Dashboard.Aggregate

/-!
# What the counts mean

`rowsIn` says what the dashboard is for, over the stored rows alone: how many of them have the timestamp
of a series in a half-open interval. The counts that the queries and the folding compute are such
numbers: `countP_eventUnion` for the union, `totals_eq` and `byEpoch_eq` for the folded rows.

Reference: `backend/api_dashboard.py`.
-/

open Python Ghpulse.Ingest

namespace Ghpulse.Dashboard

variable {ρ : Type}

/-! ## Rows in an interval

The specification side. Nothing here mentions the union, a bucket or an epoch, and each series reads one
timestamp of a row under one condition on its state.
-/

/-- The timestamp of an issue for a series. -/
def issueTime (kind : Kind) (r : Issue) : Option Instant :=
  match kind with
  | .opened => some r.createdAt
  | .completed =>
    if r.state = lit "CLOSED" ∧ r.stateReason = some (lit "COMPLETED") then r.closedAt else none
  | .notPlanned =>
    if r.state = lit "CLOSED" ∧ r.stateReason = some (lit "NOT_PLANNED") then r.closedAt else none
  | _ => none

/-- The timestamp of a pull request for a series. -/
def pullRequestTime (kind : Kind) (r : PullRequest) : Option Instant :=
  match kind with
  | .opened => some r.createdAt
  | .merged => if r.state = lit "MERGED" ∧ r.merged = true then r.mergedAt else none
  | .closedUnmerged => if r.state = lit "CLOSED" ∧ r.merged = false then r.closedAt else none
  | _ => none

/-- The row is public and belongs to a public external repository. -/
def publicRow (db : Db) (c : Columns ρ) (r : ρ) : Bool :=
  !c.isPrivate r && (db.repositories.find (c.repositoryId r)).any fun repository =>
    !repository.isPrivate && repository.isExternal

/-- The repository is in the scope of a request. -/
def inScope (repository : Option Str) (repositoryId : Str) : Bool :=
  repository.all fun id => decide (repositoryId = id)

/-- The timestamp lies in `[start, stop)`. -/
def inside (start stop : Instant) (t : Option Instant) : Bool :=
  t.any fun t => decide (start ≤ t ∧ t < stop)

/-- A timestamp is inside when it is there and lies in the window. -/
theorem inside_iff {start stop : Instant} {t : Option Instant} :
    inside start stop t = true ↔ ∃ u, t = some u ∧ start ≤ u ∧ u < stop := by
  simp [inside, Option.any_eq_true]

/-- The number of public rows of a repository scope whose timestamp lies in `[start, stop)`. -/
def rowsWith (db : Db) (c : Columns ρ) (items : List ρ) (time : ρ → Option Instant)
    (repository : Option Str) (start stop : Instant) : ℕ :=
  items.countP fun r =>
    publicRow db c r && inScope repository (c.repositoryId r) && inside start stop (time r)

/-- The number of stored rows that a series counts in `[start, stop)`. -/
def rowsIn (db : Db) (repository : Option Str) (panel : Panel) (kind : Kind)
    (start stop : Instant) : ℕ :=
  match panel with
  | .issues =>
    rowsWith db issueColumns db.issues.rows (issueTime kind) repository start stop
  | .pullRequests =>
    rowsWith db pullRequestColumns db.pullRequests.rows (pullRequestTime kind) repository start stop

/-! ## The union

An arm dates the rows that it selects, which is a statement about single rows (`Arm.Dates`) with one lemma
for each of the six arms. The rest is about lists and the same for all.
-/

/-- The rows that runs store pass the privacy predicates. -/
theorem publicRow_of_stored {db : Db} {c : Columns ρ} {items : List ρ} (h : Stored db c items) {r : ρ}
    (hr : r ∈ items) : publicRow db c r = true := by
  obtain ⟨hfk, hprivate⟩ := h r hr
  obtain ⟨repository, hfind⟩ := Option.isSome_iff_exists.mp hfk
  obtain ⟨hpublic, hexternal⟩ := public_of_find hfind
  simp [publicRow, hfind, hprivate, hpublic, hexternal]

/-- Every stored row counts. -/
theorem rowsWith_eq {db : Db} {c : Columns ρ} {items : List ρ} (h : Stored db c items)
    (time : ρ → Option Instant) (repository : Option Str) (start stop : Instant) :
    rowsWith db c items time repository start stop =
      items.countP fun r => inScope repository (c.repositoryId r) && inside start stop (time r) := by
  refine List.countP_congr fun r hr => ?_
  rw [publicRow_of_stored h hr, Bool.true_and]

/-- The events of an arm that satisfy a condition. -/
theorem Arm.countP_events (arm : Arm ρ) {db : Db} {c : Columns ρ} {items : List ρ}
    (h : Stored db c items) (p : Event → Bool) :
    (arm.events db c items).countP p =
      items.countP fun r => Sql.holds (arm.condition r) && p (arm.event c r) := by
  rw [arm.events_eq h, List.countP_map, List.countP_filter]
  refine List.countP_congr fun r _ => ?_
  simp [Bool.and_comm]

/-- An event of a series in a scope and an interval. -/
def isCounted (repository : Option Str) (panel : Panel) (kind : Kind) (start stop : Instant)
    (e : Event) : Bool :=
  decide (e.panel = panel ∧ e.kind = kind) && inScope repository e.repositoryId &&
    inside start stop e.eventAt

/-- The arm selects the rows that have a timestamp, and dates them by it. -/
def Arm.Dates (arm : Arm ρ) (time : ρ → Option Instant) : Prop :=
  -- outside of its condition the arm has no row, and inside it reads one column
  ∀ r, time r = if Sql.holds (arm.condition r) then arm.eventAt r else none

/-- An arm contributes the rows with a timestamp to its own series, and nothing to any other. -/
theorem Arm.Dates.countP_isCounted {arm : Arm ρ} {time : ρ → Option Instant} (hdates : arm.Dates time)
    {db : Db} {c : Columns ρ} {items : List ρ} (h : Stored db c items) (repository : Option Str)
    (panel : Panel) (kind : Kind) (start stop : Instant) :
    (arm.events db c items).countP (isCounted repository panel kind start stop) =
      if arm.panel = panel ∧ arm.kind = kind then
        rowsWith db c items time repository start stop
      else 0 := by
  rw [arm.countP_events h]
  split_ifs with hseries
  · obtain ⟨rfl, rfl⟩ := hseries
    rw [rowsWith_eq h]
    refine List.countP_congr fun r _ => ?_
    rw [hdates r]
    cases Sql.holds (arm.condition r) with
    | true => simp [isCounted, Arm.event]
    | false => simp [inside]
  · rw [List.countP_eq_zero]
    intro r _
    simp [isCounted, Arm.event, hseries]

/-- The arm of the opened issues dates them by their creation. -/
theorem openedIssues_dates : openedIssues.Dates (issueTime .opened) := fun _ => rfl

/-- So does that of the opened pull requests. -/
theorem openedPullRequests_dates : openedPullRequests.Dates (pullRequestTime .opened) := fun _ => rfl

/-- A column that is read where its conditions hold, with and without the `IS NOT NULL` of an arm. -/
theorem ite_isSome {P : Prop} [Decidable P] (column : Option Instant) :
    (if P ∧ column.isSome = true then column else none) = if P then column else none := by
  by_cases hP : P <;> cases column <;> simp [hP]

/-- The completed issues are dated by their closing. -/
theorem completedIssues_dates : completedIssues.Dates (issueTime .completed) := by
  intro r
  simp [issueTime, completedIssues, ← and_assoc, ite_isSome]

/-- So are those that were not planned. -/
theorem notPlannedIssues_dates : notPlannedIssues.Dates (issueTime .notPlanned) := by
  intro r
  simp [issueTime, notPlannedIssues, ← and_assoc, ite_isSome]

/-- The merged pull requests are dated by their merge. -/
theorem mergedPullRequests_dates : mergedPullRequests.Dates (pullRequestTime .merged) := by
  intro r
  simp [pullRequestTime, mergedPullRequests, ← and_assoc, ite_isSome]

/-- Those closed without a merge by their closing. -/
theorem closedUnmergedPullRequests_dates :
    closedUnmergedPullRequests.Dates (pullRequestTime .closedUnmerged) := by
  intro r
  simp [pullRequestTime, closedUnmergedPullRequests, ← and_assoc, ite_isSome]

/-- The union contains, for each series, one event for each stored row with a timestamp of it. -/
theorem countP_eventUnion (db : Db) (repository : Option Str) (panel : Panel) (kind : Kind)
    (start stop : Instant) :
    (eventUnion db).countP (isCounted repository panel kind start stop) =
      rowsIn db repository panel kind start stop := by
  have hi := stored_issues db
  have hp := stored_pullRequests db
  -- a series that a panel does not have counts nothing
  have hnone {ρ : Type} (c : Columns ρ) (items : List ρ) :
      rowsWith db c items (fun _ => none) repository start stop = 0 := by
    simp [rowsWith, inside]
  simp only [eventUnion, issueArms, pullRequestArms, List.flatMap_cons, List.flatMap_nil,
    List.append_nil, List.countP_append, openedIssues_dates.countP_isCounted hi,
    completedIssues_dates.countP_isCounted hi, notPlannedIssues_dates.countP_isCounted hi,
    openedPullRequests_dates.countP_isCounted hp, mergedPullRequests_dates.countP_isCounted hp,
    closedUnmergedPullRequests_dates.countP_isCounted hp]
  -- each series of a panel has one arm; the others have none, and no row has a timestamp for them
  cases panel <;> cases kind <;>
    simp [openedIssues, completedIssues, notPlannedIssues, openedPullRequests, mergedPullRequests,
      closedUnmergedPullRequests, rowsIn] <;>
    exact (hnone _ _).symm

/-! ## Folding

The loop of `_fold_buckets` adds numbers into two dictionaries, so its result is a sum over the rows,
whatever their order; and a group of `_event_rows` has as its number the count of its events.
-/

/-- The sum of the counts of some rows. -/
def rowSum (p : EventRow → Bool) (rows : List EventRow) : ℕ :=
  (rows.map fun row => if p row then row.n else 0).sum

/-- A row adds its number to the total of its kind. -/
theorem foldRow_totals {keys : List Kind} {kind : Kind} (hkind : kind ∈ keys) (acc : Folded)
    (row : EventRow) :
    (foldRow keys acc row).totals kind =
      acc.totals kind + if row.kind = kind then row.n else 0 := by
  by_cases hmem : row.kind ∈ keys
  · rw [foldRow, if_pos hmem]
  · have hne : row.kind ≠ kind := fun h => hmem (h ▸ hkind)
    rw [foldRow, if_neg hmem, if_neg hne, Nat.add_zero]

/-- And to the count of its kind in its bucket. -/
theorem foldRow_byEpoch {keys : List Kind} {kind : Kind} (hkind : kind ∈ keys) (acc : Folded)
    (row : EventRow) (epoch : ℤ) :
    (foldRow keys acc row).byEpoch epoch kind =
      acc.byEpoch epoch kind + if row.epoch = epoch ∧ row.kind = kind then row.n else 0 := by
  by_cases hmem : row.kind ∈ keys
  · rw [foldRow, if_pos hmem]
  · have hne : ¬(row.epoch = epoch ∧ row.kind = kind) := fun h => hmem (h.2 ▸ hkind)
    rw [foldRow, if_neg hmem, if_neg hne, Nat.add_zero]

/-- The folded total of a kind sums the rows of that kind. -/
theorem foldl_totals {keys : List Kind} {kind : Kind} (hkind : kind ∈ keys) (rows : List EventRow)
    (acc : Folded) :
    (rows.foldl (foldRow keys) acc).totals kind =
      acc.totals kind + rowSum (fun row => decide (row.kind = kind)) rows := by
  induction rows generalizing acc with
  | nil => rfl
  | cons row rows ih =>
    rw [List.foldl_cons, ih, foldRow_totals hkind]
    simp [rowSum, Nat.add_assoc]

/-- The folded count of an epoch and a kind sums the rows of that epoch and that kind. -/
theorem foldl_byEpoch {keys : List Kind} {kind : Kind} (hkind : kind ∈ keys) (epoch : ℤ)
    (rows : List EventRow) (acc : Folded) :
    (rows.foldl (foldRow keys) acc).byEpoch epoch kind = acc.byEpoch epoch kind +
      rowSum (fun row => decide (row.epoch = epoch ∧ row.kind = kind)) rows := by
  induction rows generalizing acc with
  | nil => rfl
  | cons row rows ih =>
    rw [List.foldl_cons, ih, foldRow_byEpoch hkind]
    simp [rowSum, Nat.add_assoc]

/-- A sum over some rows is one over all with a condition. -/
theorem rowSum_filter (p q : EventRow → Bool) (rows : List EventRow) :
    rowSum p (rows.filter q) = rowSum (fun row => q row && p row) rows := by
  induction rows with
  | nil => rfl
  | cons row rows ih =>
    unfold rowSum at ih ⊢
    cases hq : q row <;> simp [hq, ih]

/-- The order of the rows does not matter, and a group counts its events. -/
theorem rowSum_eventRows (collate : Str → Str → Bool) (db : Db) (window : RangeWindow)
    (repository : Option Str) (p : ℤ × Panel × Kind → Bool) :
    rowSum (fun row => p (row.epoch, row.panel, row.kind))
        (eventRows collate db window repository) =
      (eventKeys db window repository).countP p := by
  rw [rowSum, eventRows, ((List.mergeSort_perm _ _).map _).sum_eq, List.map_map,
    ← Grouping.sum_groups]
  rfl

/-- The predicate on the repository holds in the scope. -/
theorem holds_repositoryPredicate (repository : Option Str) (repositoryId : Str) :
    Sql.holds (repositoryPredicate repository repositoryId) = inScope repository repositoryId := by
  cases repository <;> simp [repositoryPredicate, inScope]

/-- The predicate on a timestamp holds inside the window. -/
theorem holds_between (t : Option Instant) (start stop : Instant) :
    Sql.holds (between t start stop) = inside start stop t := by
  cases t <;> simp [between, inside]

/-- The `WHERE` of the event queries. -/
theorem holds_selects (window : RangeWindow) (repository : Option Str) (e : Event) :
    Sql.holds (selects window repository e) =
      (inside window.start window.stop e.eventAt && inScope repository e.repositoryId) := by
  rw [selects, Sql.holds_and, Sql.holds_and, holds_between, holds_repositoryPredicate]
  cases e.eventAt <;> simp [inside]

/-- The keys of a series whose epoch satisfies a condition are the events of the series in an interval,
if within the window the condition says that the event lies in the interval. -/
theorem countP_eventKeys (db : Db) (window : RangeWindow) (repository : Option Str) (panel : Panel)
    (kind : Kind) (p : ℤ → Bool) (start stop : Instant)
    (hp : ∀ t, window.start ≤ t ∧ t < window.stop ∧ p (sqlEpoch window.bucketS t) = true ↔
      start ≤ t ∧ t < stop) :
    (eventKeys db window repository).countP
        (fun key => decide (key.2 = (panel, kind)) && p key.1) =
      rowsIn db repository panel kind start stop := by
  rw [eventKeys, List.countP_filterMap, List.countP_filter, ← countP_eventUnion]
  refine List.countP_congr fun e _ => ?_
  rw [holds_selects]
  cases ht : e.eventAt with
  | none => simp [isCounted, inside, ht]
  | some t =>
    have ht' := hp t
    simp only [isCounted, inside, ht, Option.map_some, Option.getD_some, Option.any_some,
      Bool.and_eq_true, decide_eq_true_eq, Prod.mk.injEq]
    tauto

/-- The bucket that SQL assigns to an instant is the one that contains it. -/
theorem sqlEpoch_eq_iff {width m : ℤ} (hwidth : 0 < width) (t : Instant) :
    sqlEpoch width t = m * width ↔ m * width * 1000000 ≤ t ∧ t < (m * width + width) * 1000000 := by
  have hscale : (0 : ℚ) < width := by exact_mod_cast hwidth
  unfold sqlEpoch
  rw [mul_left_inj' hwidth.ne', Int.floor_eq_iff, le_div_iff₀ hscale, le_div_iff₀ (by norm_num),
    div_lt_iff₀ hscale, div_lt_iff₀ (by norm_num)]
  constructor
  · rintro ⟨hlo, hhi⟩
    have hlo : m * width * 1000000 ≤ t := by exact_mod_cast hlo
    have hhi : t < (m + 1) * width * 1000000 := by exact_mod_cast hhi
    exact ⟨hlo, hhi.trans_eq (by ring)⟩
  · rintro ⟨hlo, hhi⟩
    have hhi : t < (m + 1) * width * 1000000 := hhi.trans_eq (by ring)
    exact ⟨by exact_mod_cast hlo, by exact_mod_cast hhi⟩

/-- The folded rows of a panel. -/
def panelFold (collate : Str → Str → Bool) (db : Db) (window : RangeWindow) (repository : Option Str)
    (panel : Panel) : Folded :=
  ((eventRows collate db window repository).filter fun r => decide (r.panel = panel)).foldl
    (foldRow panel.keys) ⟨fun _ _ => 0, fun _ => 0⟩

section PanelFold

variable (collate : Str → Str → Bool) (db : Db) (window : RangeWindow) (repository : Option Str)
  {panel : Panel} {kind : Kind} (hkind : kind ∈ panel.keys)
include hkind

/-- The total of a series is the number of its rows in the window. -/
theorem totals_eq : (panelFold collate db window repository panel).totals kind =
    rowsIn db repository panel kind window.start window.stop := by
  have hrows := countP_eventKeys db window repository panel kind (fun _ => true) window.start
    window.stop (by simp)
  rw [panelFold, foldl_totals hkind, rowSum_filter, Nat.zero_add, ← hrows, ← rowSum_eventRows collate]
  congr 1
  funext row
  simp

/-- The count of an epoch is the number of the rows of its bucket in the window. -/
theorem byEpoch_eq (m : ℤ) :
    (panelFold collate db window repository panel).byEpoch (m * window.bucketS) kind =
      rowsIn db repository panel kind (max (m * window.bucketS * 1000000) window.start)
        (min ((m * window.bucketS + window.bucketS) * 1000000) window.stop) := by
  have hrows := countP_eventKeys db window repository panel kind
    (fun epoch => decide (epoch = m * window.bucketS))
    (max (m * window.bucketS * 1000000) window.start)
    (min ((m * window.bucketS + window.bucketS) * 1000000) window.stop) (by
      intro t
      rw [decide_eq_true_eq, sqlEpoch_eq_iff window.bucketS_pos, max_le_iff, lt_min_iff]
      tauto)
  rw [panelFold, foldl_byEpoch hkind, rowSum_filter, Nat.zero_add, ← hrows,
    ← rowSum_eventRows collate]
  congr 1
  funext row
  rw [Bool.eq_iff_iff]
  simp
  tauto

end PanelFold

/-! ## The body

The body in terms of the enumerated bounds. A build can only fail in the enumeration, which happens twice,
once for each panel, with the same result.
-/

/-- The body over given bounds. -/
def bodyOf (collate : Str → Str → Bool) (db : Db) (window : RangeWindow) (repository : Option Str)
    (startedAt : Instant) (bounds : List Bound) : Body where
  range := window.name
  bucketS := window.bucketS
  start := window.start
  stop := window.stop
  buckets panel := bounds.map fun b =>
    ⟨b.left, b.right, (panelFold collate db window repository panel).byEpoch b.epoch⟩
  totals panel := (panelFold collate db window repository panel).totals
  currentlyOpen := summaryOpenCounts db window repository
  lastIngest := lastIngest db
  repositories := repositoryRows collate db (eventRepositoryIds collate db window repository)
  generatedAt := startedAt

/-- The build returns exactly when the bounds can be enumerated. -/
theorem dashboardBuild_eq (collate : Str → Str → Bool) (db : Db) (window : RangeWindow)
    (repository : Option Str) (startedAt : Instant) :
    dashboardBuild collate db window repository startedAt =
      (denseBucketBounds window.start window.stop window.bucketS).map
        (bodyOf collate db window repository startedAt) := by
  have hperPanel {α : Type} (f : Panel → α) : perPanel (f .issues) (f .pullRequests) = f := by
    funext panel
    cases panel <;> rfl
  unfold dashboardBuild foldBuckets
  cases denseBucketBounds window.start window.stop window.bucketS with
  | error e => rfl
  | ok bounds =>
    show Except.ok _ = Except.ok _
    rw [bodyOf, ← hperPanel fun panel => bounds.map fun b =>
      (⟨b.left, b.right, (panelFold collate db window repository panel).byEpoch b.epoch⟩ : Bucket),
      ← hperPanel fun panel => (panelFold collate db window repository panel).totals]
    rfl

end Ghpulse.Dashboard
