import Ghpulse.Dashboard.Buckets
import Ghpulse.Ingest.History

/-!
# Event accounting

Every stored issue and pull request contributes one creation event and, by its state, at most one
outcome, so over the range `all` the counts of the summary add up. `Accounted` is what holds of every
database that ingest runs reach; `reachable_accounted` adds the equations of the summary.

The argument is about single rows first. The constraints of the schema leave an issue two shapes and a
pull request three, and in each of them it is clear which arms of the union select the row. A sum over the
rows then gives the equations. They are about `all`, because a window that starts later may hold an
outcome without its creation.

Reference: `backend/api_dashboard.py`, `docs/superpowers/specs/2026-08-11-ghpulse-foundation-design.md`.
-/

open Python Ghpulse.Ingest

namespace Ghpulse.Dashboard

variable {ρ κ ν : Type}

/-! ## The events of one row

An issue has one outcome at most: an issue that was closed as a duplicate, say, has none, and it is these
that the equation of the issues must add.
-/

/-- The events of an issue: the union over this row alone. -/
def issueEvents (db : Db) (r : Issue) : List Event :=
  issueArms.flatMap fun arm => arm.events db issueColumns [r]

/-- The events of a pull request: the union over this row alone. -/
def pullRequestEvents (db : Db) (r : PullRequest) : List Event :=
  pullRequestArms.flatMap fun arm => arm.events db pullRequestColumns [r]

/-- The events of an arm are those of the first item and those of the rest. -/
theorem Arm.events_cons (arm : Arm ρ) (db : Db) (c : Columns ρ) (r : ρ) (items : List ρ) :
    arm.events db c (r :: items) = arm.events db c [r] ++ arm.events db c items := by
  have hjoined : joined db c (r :: items) = joined db c [r] ++ joined db c items := by
    unfold joined
    rw [← List.filterMap_append, List.singleton_append]
  unfold Arm.events
  rw [hjoined, List.filter_append, List.map_append]

/-- A union over a table is the collection of the unions over its rows. -/
theorem arms_perm (arms : List (Arm ρ)) (db : Db) (c : Columns ρ) (items : List ρ) :
    (arms.flatMap fun arm => arm.events db c items).Perm
      (items.flatMap fun r => arms.flatMap fun arm => arm.events db c [r]) := by
  induction items with
  | nil => simp [Arm.events, joined]
  | cons r items ih =>
    simp only [Arm.events_cons _ db c r items, List.flatMap_cons]
    exact (List.flatMap_append_perm arms _ _).symm.trans (ih.append_left _)

/-- Stored items are stored one by one. -/
theorem Stored.single {db : Db} {c : Columns ρ} {items : List ρ} (h : Stored db c items) {r : ρ}
    (hr : r ∈ items) : Stored db c [r] := by
  intro x hx
  obtain rfl : x = r := List.mem_singleton.mp hx
  exact h x hr

/-- The event of a stored row in an arm. -/
theorem Arm.events_single (arm : Arm ρ) {db : Db} {c : Columns ρ} {items : List ρ}
    (h : Stored db c items) {r : ρ} (hr : r ∈ items) :
    arm.events db c [r] = if Sql.holds (arm.condition r) then [arm.event c r] else [] := by
  rw [arm.events_eq (h.single hr), List.filter_singleton]
  cases Sql.holds (arm.condition r) <;> rfl

/-- What an issue contributes: its creation, and at most one outcome, when it was closed. -/
structure IssueAccounted (db : Db) (r : Issue) (outcomes : List Event) : Prop where
  events : issueEvents db r =
    ⟨r.repositoryId, some r.createdAt, .issues, .opened⟩ :: outcomes
  atMostOne : outcomes.length ≤ 1
  outcome : ∀ e ∈ outcomes, e.kind = .completed ∨ e.kind = .notPlanned

/-- What a pull request contributes: its creation, and one outcome exactly when it is not open. -/
structure PullRequestAccounted (db : Db) (r : PullRequest) (outcomes : List Event) : Prop where
  events : pullRequestEvents db r =
    ⟨r.repositoryId, some r.createdAt, .pullRequests, .opened⟩ :: outcomes
  exactlyOne : outcomes.length = if r.state = lit "OPEN" then 0 else 1
  outcome : ∀ e ∈ outcomes, e.kind = .merged ∨ e.kind = .closedUnmerged

/-- The events of an arm have its kind. -/
theorem Arm.kind_of_mem {arm : Arm ρ} {db : Db} {c : Columns ρ} {items : List ρ} {e : Event}
    (h : e ∈ arm.events db c items) : e.kind = arm.kind := by
  obtain ⟨x, -, rfl⟩ := List.mem_map.mp h
  rfl

/-- Every stored issue is accounted for. -/
theorem issueAccounted (db : Db) {r : Issue} (hr : r ∈ db.issues.rows) :
    ∃ outcomes, IssueAccounted db r outcomes := by
  have hstored := stored_issues db
  refine ⟨completedIssues.events db issueColumns [r] ++
    notPlannedIssues.events db issueColumns [r], ?_, ?_, ?_⟩
  · show openedIssues.events db issueColumns [r] ++ _ = _
    rw [openedIssues.events_single hstored hr]
    simp [openedIssues, Arm.event, issueColumns]
  · rw [completedIssues.events_single hstored hr, notPlannedIssues.events_single hstored hr]
    -- the reasons of the two arms exclude each other
    by_cases hreason : r.stateReason = some (lit "COMPLETED")
    · have hne : lit "COMPLETED" ≠ lit "NOT_PLANNED" := by decide
      simp only [notPlannedIssues, Sql.holds_and, Sql.holds_eq, hreason, Option.some.injEq, hne]
      split_ifs <;> simp_all
    · simp only [completedIssues, Sql.holds_and, Sql.holds_eq, hreason]
      split_ifs <;> simp_all
  · intro e he
    exact (List.mem_append.mp he).imp Arm.kind_of_mem Arm.kind_of_mem

/-- So is every stored pull request. -/
theorem pullRequestAccounted (db : Db) {r : PullRequest} (hr : r ∈ db.pullRequests.rows) :
    ∃ outcomes, PullRequestAccounted db r outcomes := by
  have hstored := stored_pullRequests db
  refine ⟨mergedPullRequests.events db pullRequestColumns [r] ++
    closedUnmergedPullRequests.events db pullRequestColumns [r], ?_, ?_, ?_⟩
  · show openedPullRequests.events db pullRequestColumns [r] ++ _ = _
    rw [openedPullRequests.events_single hstored hr]
    simp [openedPullRequests, Arm.event, pullRequestColumns]
  · rw [mergedPullRequests.events_single hstored hr,
      closedUnmergedPullRequests.events_single hstored hr]
    have hopen : lit "CLOSED" ≠ lit "OPEN" ∧ lit "MERGED" ≠ lit "OPEN" ∧
      lit "OPEN" ≠ lit "CLOSED" ∧ lit "OPEN" ≠ lit "MERGED" := by decide
    have hclosed : lit "MERGED" ≠ lit "CLOSED" ∧ lit "CLOSED" ≠ lit "MERGED" := by decide
    -- one case for each shape that the constraints admit
    rcases pullRequest_shape (db.pullRequests.checked r hr) with hshape | hshape | hshape
    · simp [mergedPullRequests, closedUnmergedPullRequests, hshape, hopen]
    · simp [mergedPullRequests, closedUnmergedPullRequests, hshape, hopen, hclosed]
    · simp [mergedPullRequests, closedUnmergedPullRequests, hshape, hopen, hclosed]
  · intro e he
    exact (List.mem_append.mp he).imp Arm.kind_of_mem Arm.kind_of_mem

/-! ## The range `all`

The window of `all` starts at the earliest event of its scope. If it ends after the last one, every
timestamp is inside, and the conditions on the window drop out of the counts.
-/

/-- Every event of the scope lies in the window. -/
def Covers (db : Db) (window : RangeWindow) (repository : Option Str) : Prop :=
  ∀ e ∈ eventUnion db, inScope repository e.repositoryId = true →
    ∀ t ∈ e.eventAt, window.start ≤ t ∧ t < window.stop

/-- The window of `all` starts at the earliest event, so it covers the scope if it ends after the last
one. -/
theorem covers_of_buildWindow {printable : CodePoint → Bool} {db : Db} {clock : ReadClock}
    {repository : Option Str} {window : RangeWindow}
    (h : buildWindow printable db clock (lit "all") repository = .ok window)
    (hnow : ∀ e ∈ eventUnion db, inScope repository e.repositoryId = true →
      ∀ t ∈ e.eventAt, t < clock.now) : Covers db window repository := by
  have hwindow : allWindow db clock clock.rangeAt (lit "all") repository = .ok window := h
  have hmem {e : Event} (he : e ∈ eventUnion db) (hscope : inScope repository e.repositoryId = true)
      {t : Instant} (ht : t ∈ e.eventAt) : t ∈ ((eventUnion db).filter fun e =>
        Sql.holds (Sql.and (Sql.isNotNull e.eventAt)
          (repositoryPredicate repository e.repositoryId))).filterMap Event.eventAt := by
    refine List.mem_filterMap.mpr ⟨e, List.mem_filter.mpr ⟨he, ?_⟩, ht⟩
    rw [Sql.holds_and, holds_repositoryPredicate, hscope, Sql.holds_isNotNull, ht]
    rfl
  intro e he hscope t ht
  unfold allWindow at hwindow
  cases hbounds : eventBounds db repository with
  | none =>
    have hempty := List.min?_eq_none_iff.mp hbounds
    have hevent := hmem he hscope ht
    rw [hempty] at hevent
    cases hevent
  | some start =>
    rw [hbounds] at hwindow
    dsimp only at hwindow
    split_ifs at hwindow with hrange
    cases hwindow
    have hmin := (List.min?_eq_some_iff.mp hbounds).2
    exact ⟨hmin t (hmem he hscope ht), hnow e he hscope t ht⟩

section Series

variable {db : Db} {c : Columns ρ} {items : List ρ} (panel : Panel) (time : Kind → ρ → Option Instant)
  (hstored : Stored db c items)
  (hrows : ∀ repository kind start stop, rowsIn db repository panel kind start stop =
    rowsWith db c items (time kind) repository start stop)
include hstored hrows

/-- A row with a timestamp of a series has an event at that time. -/
theorem exists_event {r : ρ} (hr : r ∈ items) {kind : Kind} {t : Instant} (ht : time kind r = some t) :
    ∃ e ∈ eventUnion db, e.repositoryId = c.repositoryId r ∧ e.eventAt = some t := by
  have hpos : 0 < rowsIn db (some (c.repositoryId r)) panel kind t (t + 1) := by
    rw [hrows, rowsWith_eq hstored, List.countP_pos_iff]
    exact ⟨r, hr, by simp [inScope, inside, ht]⟩
  rw [← countP_eventUnion, List.countP_pos_iff] at hpos
  obtain ⟨e, he, hcounted⟩ := hpos
  simp only [isCounted, inScope, Option.all_some, Bool.and_eq_true, decide_eq_true_eq] at hcounted
  obtain ⟨⟨-, hrepository⟩, hinside⟩ := hcounted
  obtain ⟨u, hu, hlo, hhi⟩ := inside_iff.mp hinside
  have heq : u = t := le_antisymm (Int.lt_add_one_iff.mp hhi) hlo
  exact ⟨e, he, hrepository, heq ▸ hu⟩

variable {window : RangeWindow} {repository : Option Str} (hcovers : Covers db window repository)
include hcovers

/-- In a window that covers the scope, every timestamp is inside. -/
theorem inside_of_covers {r : ρ} (hr : r ∈ items) (kind : Kind) :
    (inScope repository (c.repositoryId r) && inside window.start window.stop (time kind r)) =
      (inScope repository (c.repositoryId r) && (time kind r).isSome) := by
  cases hscope : inScope repository (c.repositoryId r) with
  | false => rfl
  | true =>
    rw [Bool.true_and, Bool.true_and]
    cases ht : time kind r with
    | none => rfl
    | some t =>
      obtain ⟨e, he, hrepository, hat⟩ := exists_event panel time hstored hrows hr ht
      exact inside_iff.mpr ⟨t, rfl, hcovers e he (hrepository ▸ hscope) t hat⟩

/-- … and a series counts the rows of the scope that have its timestamp. -/
theorem rowsIn_of_covers (kind : Kind) :
    rowsIn db repository panel kind window.start window.stop =
      items.countP fun r => inScope repository (c.repositoryId r) && (time kind r).isSome := by
  rw [hrows, rowsWith_eq hstored]
  exact List.countP_congr fun r hr => by rw [inside_of_covers panel time hstored hrows hcovers hr]

/-- The open count of a window that covers the scope, if the first series dates the creation. -/
theorem openCount_of_covers (hcreated : ∀ r, time .opened r = some (c.createdAt r)) :
    openCount db c items window repository = items.countP fun r =>
      inScope repository (c.repositoryId r) && decide (c.state r = lit "OPEN") := by
  have hmap := joined_filter_map hstored (fun r =>
    Sql.and (Sql.eq (some (c.state r)) (some (lit "OPEN")))
      (Sql.and (between (some (c.createdAt r)) window.start window.stop)
        (repositoryPredicate repository (c.repositoryId r)))) id
  have hlength := congrArg List.length hmap
  rw [List.length_map, List.length_map] at hlength
  unfold openCount
  rw [hlength, ← List.countP_eq_length_filter]
  refine List.countP_congr fun r hr => ?_
  have hinside := inside_of_covers panel time hstored hrows hcovers hr .opened
  rw [hcreated] at hinside
  rw [Sql.holds_and, Sql.holds_and, holds_between, holds_repositoryPredicate, Sql.holds_eq]
  cases hscope : inScope repository (c.repositoryId r) with
  | false => simp
  | true =>
    rw [hscope, Bool.true_and, Bool.true_and] at hinside
    simp [hinside]

end Series

/-! ## The equations of the summary

Both equations are partitions of the rows of the scope by their shape.
-/

/-- The states differ. -/
theorem states_ne : lit "OPEN" ≠ lit "CLOSED" ∧ lit "OPEN" ≠ lit "MERGED" ∧
    lit "CLOSED" ≠ lit "OPEN" ∧ lit "CLOSED" ≠ lit "MERGED" ∧ lit "MERGED" ≠ lit "OPEN" ∧
    lit "MERGED" ≠ lit "CLOSED" := by decide

/-- A closed issue whose reason gives no outcome. -/
def isOtherClosed (r : Issue) : Bool :=
  decide (r.state = lit "CLOSED" ∧ r.stateReason ≠ some (lit "COMPLETED") ∧
    r.stateReason ≠ some (lit "NOT_PLANNED"))

/-- The closed issues of the scope whose reason is neither `COMPLETED` nor `NOT_PLANNED`. -/
def otherClosed (db : Db) (repository : Option Str) : ℕ :=
  db.issues.rows.countP fun r => inScope repository r.repositoryId && isOtherClosed r

section Balance

variable {db : Db} {window : RangeWindow} {repository : Option Str}
  (hcovers : Covers db window repository)
include hcovers

/-- A pull request of the scope was merged, was closed, or is open. -/
theorem pullRequests_balance :
    rowsIn db repository .pullRequests .opened window.start window.stop =
      rowsIn db repository .pullRequests .merged window.start window.stop +
        rowsIn db repository .pullRequests .closedUnmerged window.start window.stop +
        summaryOpenCounts db window repository .pullRequests := by
  have hstored := stored_pullRequests db
  have hseries := rowsIn_of_covers .pullRequests pullRequestTime hstored (fun _ _ _ _ => rfl) hcovers
  have hopen := openCount_of_covers .pullRequests pullRequestTime hstored (fun _ _ _ _ => rfl) hcovers
    fun _ => rfl
  have hsum := Grouping.sum_countP db.pullRequests.rows
    (fun r => inScope repository r.repositoryId && (pullRequestTime .opened r).isSome)
    [fun r => inScope repository r.repositoryId && (pullRequestTime .merged r).isSome,
      fun r => inScope repository r.repositoryId && (pullRequestTime .closedUnmerged r).isSome,
      fun r => inScope repository r.repositoryId && decide (r.state = lit "OPEN")] (by
      intro r hr
      cases hscope : inScope repository r.repositoryId with
      | false => simp [hscope]
      | true =>
        -- one case for each shape that the constraints admit
        rcases pullRequest_shape (db.pullRequests.checked r hr) with hshape | hshape | hshape
        · simp [pullRequestTime, hscope, hshape, states_ne]
        · simp [pullRequestTime, hscope, hshape, states_ne]
        · simp [pullRequestTime, hscope, hshape, states_ne])
  rw [hseries, hseries, hseries]
  show _ = _ + openCount db pullRequestColumns db.pullRequests.rows window repository
  simp only [List.map_cons, List.map_nil, List.sum_cons, List.sum_nil, Nat.add_zero] at hsum
  rw [hopen, Nat.add_assoc]
  exact hsum.symm

/-- An issue of the scope has one of the two outcomes, is open, or was closed for another reason. -/
theorem issues_balance :
    rowsIn db repository .issues .opened window.start window.stop =
      rowsIn db repository .issues .completed window.start window.stop +
        rowsIn db repository .issues .notPlanned window.start window.stop +
        summaryOpenCounts db window repository .issues + otherClosed db repository := by
  have hstored := stored_issues db
  have hseries := rowsIn_of_covers .issues issueTime hstored (fun _ _ _ _ => rfl) hcovers
  have hopen := openCount_of_covers .issues issueTime hstored (fun _ _ _ _ => rfl) hcovers fun _ => rfl
  -- the rows of the scope, split by outcome, open, and closed for another reason
  have hsum := Grouping.sum_countP db.issues.rows
    (fun r => inScope repository r.repositoryId && (issueTime .opened r).isSome)
    [fun r => inScope repository r.repositoryId && (issueTime .completed r).isSome,
      fun r => inScope repository r.repositoryId && (issueTime .notPlanned r).isSome,
      fun r => inScope repository r.repositoryId && decide (r.state = lit "OPEN"),
      fun r => inScope repository r.repositoryId && isOtherClosed r] (by
      intro r hr
      have hreasons : lit "COMPLETED" ≠ lit "NOT_PLANNED" := by decide
      cases hscope : inScope repository r.repositoryId with
      | false => simp [hscope]
      | true =>
        rcases issue_shape (db.issues.checked r hr) with hshape | hshape
        · simp [issueTime, isOtherClosed, hscope, hshape, states_ne]
        · -- the reason decides between the two outcomes and the rest
          by_cases hcompleted : r.stateReason = some (lit "COMPLETED")
          · simp [issueTime, isOtherClosed, hscope, hshape, states_ne, hcompleted, hreasons]
          · by_cases hplanned : r.stateReason = some (lit "NOT_PLANNED")
            · simp [issueTime, isOtherClosed, hscope, hshape, states_ne, hplanned, hreasons.symm]
            · simp [issueTime, isOtherClosed, hscope, hshape, states_ne, hcompleted, hplanned])
  rw [hseries, hseries, hseries]
  show _ = _ + openCount db issueColumns db.issues.rows window repository + _
  simp only [List.map_cons, List.map_nil, List.sum_cons, List.sum_nil, Nat.add_zero] at hsum
  rw [hopen, Nat.add_assoc, Nat.add_assoc]
  exact hsum.symm

end Balance

/-! ## Reachable databases

Runs of one account keep what the accounting needs: they store accepted snapshots, and refuse those with a
repository of the account itself.
-/

/-- What holds of the stored rows and their events. -/
structure Accounted (py : PyLib) (login : Str) (db : Db) : Prop where
  issues_fk : ∀ r ∈ db.issues.rows, (db.repositories.find r.repositoryId).isSome = true
  pullRequests_fk : ∀ r ∈ db.pullRequests.rows, (db.repositories.find r.repositoryId).isSome = true
  external : ∀ r ∈ db.repositories.rows, py.casefold r.ownerLogin ≠ py.casefold login
  /-- The union consists of the events of the single rows. -/
  union : (eventUnion db).Perm
    (db.issues.rows.flatMap (issueEvents db) ++ db.pullRequests.rows.flatMap (pullRequestEvents db))
  issues : ∀ r ∈ db.issues.rows, ∃ outcomes, IssueAccounted db r outcomes
  pullRequests : ∀ r ∈ db.pullRequests.rows, ∃ outcomes, PullRequestAccounted db r outcomes

/-- The counts of a body over the range `all` add up. -/
structure Balanced (db : Db) (repository : Option Str) (body : Body) : Prop where
  pullRequests : body.totals .pullRequests .opened =
    body.totals .pullRequests .merged + body.totals .pullRequests .closedUnmerged +
      body.currentlyOpen .pullRequests
  issues : body.totals .issues .opened =
    body.totals .issues .completed + body.totals .issues .notPlanned + body.currentlyOpen .issues +
      otherClosed db repository

/-- A database that shows an accepted snapshot is accounted for. -/
theorem accounted_of_shows {py : PyLib} {login : Str} {db : Db} (h : Shows py login db) :
    Accounted py login db where
  issues_fk := db.issues_fk
  pullRequests_fk := db.pullRequests_fk
  external _ hr := h.external hr
  union := (arms_perm issueArms db issueColumns db.issues.rows).append
    (arms_perm pullRequestArms db pullRequestColumns db.pullRequests.rows)
  issues _ hr := issueAccounted db hr
  pullRequests _ hr := pullRequestAccounted db hr

/-- A request returns when its repository is valid, its window resolved, and its bounds enumerated. -/
theorem dashboard_eq_ok {printable : CodePoint → Bool} {collate : Str → Str → Bool} {db : Db}
    {clock : ReadClock} {rng : Str} {repository : Option Str} {body : Body} :
    dashboard printable collate db clock rng repository = .ok body ↔
      validateRepository db repository = .ok () ∧
      ∃ window bounds, buildWindow printable db clock rng repository = .ok window ∧
        denseBucketBounds window.start window.stop window.bucketS = .ok bounds ∧
        body = bodyOf collate db window repository clock.startedAt bounds := by
  unfold dashboard
  constructor
  · intro h
    obtain ⟨_, hrepository, h⟩ := bind_eq_ok.mp h
    obtain ⟨window, hwindow, h⟩ := bind_eq_ok.mp h
    rw [dashboardBuild_eq] at h
    cases hbounds : denseBucketBounds window.start window.stop window.bucketS with
    | error e =>
      rw [hbounds] at h
      cases h
    | ok bounds =>
      rw [hbounds] at h
      cases h
      exact ⟨hrepository, window, bounds, hwindow, hbounds, rfl⟩
  · rintro ⟨hrepository, window, bounds, hwindow, hbounds, rfl⟩
    refine bind_eq_ok.mpr ⟨(), hrepository, bind_eq_ok.mpr ⟨window, hwindow, ?_⟩⟩
    rw [dashboardBuild_eq, hbounds]
    rfl

/-- The window ends now. -/
theorem stop_of_allWindow {db : Db} {clock : ReadClock} {delta : ℤ} {rng : Str}
    {repository : Option Str} {window : RangeWindow}
    (h : allWindow db clock delta rng repository = .ok window) : window.stop = clock.now := by
  unfold allWindow at h
  split at h
  · cases h
    rfl
  · split_ifs at h
    cases h
    rfl

/-- A body over the range `all` whose window ends after every event of the scope is balanced. -/
theorem balanced_of_dashboard {printable : CodePoint → Bool} {collate : Str → Str → Bool} {db : Db}
    {clock : ReadClock} {repository : Option Str} {body : Body}
    (h : dashboard printable collate db clock (lit "all") repository = .ok body)
    (hstop : ∀ e ∈ eventUnion db, inScope repository e.repositoryId = true →
      ∀ t ∈ e.eventAt, t < body.stop) : Balanced db repository body := by
  obtain ⟨-, window, bounds, hwindow, -, rfl⟩ := dashboard_eq_ok.mp h
  have hnow : window.stop = clock.now := stop_of_allWindow hwindow
  have hcovers : Covers db window repository :=
    covers_of_buildWindow hwindow fun e he hscope t ht => hnow ▸ hstop e he hscope t ht
  have htotals {panel : Panel} {kind : Kind} (hkind : kind ∈ panel.keys) :=
    totals_eq collate db window repository hkind
  constructor
  · show (panelFold collate db window repository .pullRequests).totals .opened =
      (panelFold collate db window repository .pullRequests).totals .merged +
        (panelFold collate db window repository .pullRequests).totals .closedUnmerged + _
    rw [htotals (by decide), htotals (by decide), htotals (by decide)]
    exact pullRequests_balance hcovers
  · show (panelFold collate db window repository .issues).totals .opened =
      (panelFold collate db window repository .issues).totals .completed +
        (panelFold collate db window repository .issues).totals .notPlanned + _ + _
    rw [htotals (by decide), htotals (by decide), htotals (by decide)]
    exact issues_balance hcovers

/-- Event accounting: in every database that runs of one account reach, every item has its repository,
none of them belongs to the account, and every item has its creation event and its outcome; the counts
over the range `all` add up for every repository filter. -/
theorem reachable_accounted {py : PyLib} {login : Str} {w : World κ ν} (h : Reachable py login w) :
    Accounted py login w.db ∧
      ∀ (printable : CodePoint → Bool) (collate : Str → Str → Bool) (clock : ReadClock)
        (repository : Option Str) (body : Body),
        dashboard printable collate w.db clock (lit "all") repository = .ok body →
        (∀ e ∈ eventUnion w.db, inScope repository e.repositoryId = true →
          ∀ t ∈ e.eventAt, t < body.stop) →
        Balanced w.db repository body :=
  ⟨accounted_of_shows h.shows, fun _ _ _ _ _ => balanced_of_dashboard⟩

/-- The process after a run whose source returned the sample snapshot. -/
def sampleWorld : World Unit Unit :=
  (runIngest samplePy (quietInput fun _ _ => .returned (sampleJson 7) : RunInput Unit)
    (.start .empty 300)).2

/-- A minute after the issue of the sample was opened. -/
def sampleClock : ReadClock :=
  ⟨1786406460000000, 1786406460000000, 1786406460000000, alignedMinute.stop_range⟩

/-- The window of `all` over the sample. -/
def sampleWindow : RangeWindow :=
  .ofDelta (lit "all") 1786406400000000 1786406460000000 60000000 alignedMinute.start_range
    alignedMinute.stop_range

/-- The only bucket of the window. -/
def sampleBound : Bound := ⟨1786406400000000, 1786406460000000, 1786406400⟩

/-- The body over the sample. -/
def sampleBody : Body :=
  bodyOf (fun _ _ => true) sampleWorld.db sampleWindow none 1786406460000000 [sampleBound]

/-- The sample run is reachable, so its rows are accounted for and its body is balanced. -/
theorem sampleWorld_accounted :
    Accounted samplePy (lit "me") sampleWorld.db ∧ Balanced sampleWorld.db none sampleBody := by
  have hreachable : Reachable samplePy (lit "me") sampleWorld :=
    .run (.start (.start .empty 300) ⟨rfl, rfl, rfl⟩) (quietInput fun _ _ => .returned (sampleJson 7))
      rfl rfl
  have hbounds : denseBucketBounds sampleWindow.start sampleWindow.stop sampleWindow.bucketS =
      .ok [sampleBound] := by decide +kernel
  have hbody : dashboard (fun _ => true) (fun _ _ => true) sampleWorld.db sampleClock (lit "all") none =
      .ok sampleBody :=
    dashboard_eq_ok.mpr ⟨rfl, sampleWindow, [sampleBound], rfl, hbounds, rfl⟩
  obtain ⟨haccounted, hbalanced⟩ := reachable_accounted hreachable
  exact ⟨haccounted, hbalanced (fun _ => true) (fun _ _ => true) sampleClock none sampleBody hbody
    (by decide)⟩

end Ghpulse.Dashboard
