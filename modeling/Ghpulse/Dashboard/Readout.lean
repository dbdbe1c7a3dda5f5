import Ghpulse.Dashboard.Accounting
import Ghpulse.Dashboard.Ranges

/-!
# What a dashboard reads out

`Content` is what a database says without the order in which it stores its rows, and `Reports` is what the
dashboard is for: its counts and its list of repositories, as a function of the content, the window and
the scope. A body that is built reports the content of its database (`reports_of_build`), and requests to
databases of the same content have the same answer (`answers_of_same`), so what is left of the ingest runs
in the answer is the last committed snapshot.

Reference: `backend/api_dashboard.py`.
-/

open Python Ghpulse.Ingest

namespace Ghpulse.Dashboard

variable {ρ : Type}

/-! ## Contents

The order of rows is an accident of storage: it depends on the order of commits, and no constraint speaks
of it. A content forgets it, and with it the bookkeeping columns, which no dashboard reads.
-/

/-- What is known of the nodes, in some order. -/
structure Content where
  repositories : List RepositoryColumns
  issues : List Issue
  pullRequests : List PullRequest

/-- The content of a database. -/
def contentOf (db : Db) : Content :=
  ⟨db.repositories.rows.map Repository.columns, db.issues.rows, db.pullRequests.rows⟩

/-- The content of a snapshot. -/
def snapshotContent (s : Snapshot) : Content :=
  ⟨s.repositories.map RepositoryRecord.columns, s.issueRows, s.pullRequestRows⟩

/-- Two contents differ in the order alone. -/
structure Content.Same (c c' : Content) : Prop where
  repositories : c.repositories.Perm c'.repositories
  issues : c.issues.Perm c'.issues
  pullRequests : c.pullRequests.Perm c'.pullRequests

/-- Which of the two is reordered does not matter. -/
theorem Content.Same.symm {c c' : Content} (h : c.Same c') : c'.Same c :=
  ⟨h.repositories.symm, h.issues.symm, h.pullRequests.symm⟩

/-- Two reorderings in a row are one. -/
theorem Content.Same.trans {c₁ c₂ c₃ : Content} (h : c₁.Same c₂) (h' : c₂.Same c₃) : c₁.Same c₃ :=
  ⟨h.repositories.trans h'.repositories, h.issues.trans h'.issues,
    h.pullRequests.trans h'.pullRequests⟩

/-- A database that shows an accepted snapshot has its content. -/
theorem same_of_shows {py : PyLib} {s : Snapshot} (hs : s.Accepted py) {db : Db}
    (h : db.currentState = s.currentState) : (contentOf db).Same (snapshotContent s) := by
  have hissues : (s.issueRows.map Issue.nodeId).Nodup := hs.key_issueRows ▸ hs.nodup.2.1
  have hpulls : (s.pullRequestRows.map PullRequest.nodeId).Nodup :=
    hs.key_pullRequestRows ▸ hs.nodup.2.2
  have hrows : ((contentOf db).repositories.map RepositoryColumns.nodeId).Nodup := by
    rw [contentOf, List.map_map]
    exact db.repositories.nodup
  have hrecords : ((snapshotContent s).repositories.map RepositoryColumns.nodeId).Nodup := by
    rw [snapshotContent, List.map_map]
    exact hs.nodup.1
  refine ⟨Keyed.perm_of_find? hrows hrecords fun id => ?_,
    Keyed.perm_of_find? db.issues.nodup hissues fun id =>
      congrFun (congrArg CurrentState.issues h) id,
    Keyed.perm_of_find? db.pullRequests.nodup hpulls fun id =>
      congrFun (congrArg CurrentState.pullRequests h) id⟩
  rw [contentOf, snapshotContent, List.find?_map, List.find?_map]
  exact congrFun (congrArg CurrentState.repositories h) id

/-! ## Counts of a content

The queries without the join: in a stored content every row has a public repository.
-/

/-- The events of an arm of the union, without the join. -/
def Arm.eventsOf (arm : Arm ρ) (columns : Columns ρ) (items : List ρ) : List Event :=
  (items.filter fun r => Sql.holds (arm.condition r)).map (arm.event columns)

/-- The events of a content. -/
def Content.events (c : Content) : List Event :=
  issueArms.flatMap (fun arm => arm.eventsOf issueColumns c.issues) ++
    pullRequestArms.flatMap fun arm => arm.eventsOf pullRequestColumns c.pullRequests

/-- How many items have the timestamp of a series in `[start, stop)`. -/
def Content.rowsIn (c : Content) (repository : Option Str) (panel : Panel) (kind : Kind)
    (start stop : Instant) : ℕ :=
  match panel with
  | .issues => c.issues.countP fun r =>
      inScope repository r.repositoryId && inside start stop (issueTime kind r)
  | .pullRequests => c.pullRequests.countP fun r =>
      inScope repository r.repositoryId && inside start stop (pullRequestTime kind r)

/-- How many items that were created in `[start, stop)` are open. -/
def Content.openIn (c : Content) (repository : Option Str) (panel : Panel) (start stop : Instant) : ℕ :=
  match panel with
  | .issues => c.issues.countP fun r =>
      inScope repository r.repositoryId && inside start stop (some r.createdAt) &&
        decide (r.state = lit "OPEN")
  | .pullRequests => c.pullRequests.countP fun r =>
      inScope repository r.repositoryId && inside start stop (some r.createdAt) &&
        decide (r.state = lit "OPEN")

/-- A repository of the scope has an event in `[start, stop)`. -/
def Content.Active (c : Content) (repository : Option Str) (start stop : Instant) (id : Str) : Prop :=
  ∃ e ∈ c.events, e.repositoryId = id ∧ inScope repository id = true ∧
    inside start stop e.eventAt = true

/-- Reordered items have reordered events. -/
theorem Arm.eventsOf_perm (arm : Arm ρ) (columns : Columns ρ) {items items' : List ρ}
    (h : items.Perm items') : (arm.eventsOf columns items).Perm (arm.eventsOf columns items') :=
  (h.filter _).map _

namespace Content.Same

variable {c c' : Content} (h : c.Same c')
include h

/-- The events of the same content are the same, reordered. -/
theorem events : c.events.Perm c'.events := by
  refine List.Perm.append ?_ ?_
  · exact List.Perm.flatMap_left _ fun arm _ => arm.eventsOf_perm issueColumns h.issues
  · exact List.Perm.flatMap_left _ fun arm _ => arm.eventsOf_perm pullRequestColumns h.pullRequests

/-- The same content has the same counts. -/
theorem rowsIn (repository : Option Str) (panel : Panel) (kind : Kind) (start stop : Instant) :
    c.rowsIn repository panel kind start stop = c'.rowsIn repository panel kind start stop := by
  cases panel with
  | issues => exact h.issues.countP_eq _
  | pullRequests => exact h.pullRequests.countP_eq _

/-- It has the same items open. -/
theorem openIn (repository : Option Str) (panel : Panel) (start stop : Instant) :
    c.openIn repository panel start stop = c'.openIn repository panel start stop := by
  cases panel with
  | issues => exact h.issues.countP_eq _
  | pullRequests => exact h.pullRequests.countP_eq _

/-- It has the same active repositories. -/
theorem active (repository : Option Str) (start stop : Instant) (id : Str) :
    c.Active repository start stop id ↔ c'.Active repository start stop id :=
  exists_congr fun _ => and_congr_left fun _ => h.events.mem_iff

end Content.Same

/-- The union is that of the content. -/
theorem eventUnion_eq (db : Db) : eventUnion db = (contentOf db).events := by
  unfold eventUnion Content.events
  congr 1
  · exact List.flatMap_congr fun arm _ => arm.events_eq (stored_issues db)
  · exact List.flatMap_congr fun arm _ => arm.events_eq (stored_pullRequests db)

/-- A count of the database is one of its content. -/
theorem rowsIn_eq (db : Db) (repository : Option Str) (panel : Panel) (kind : Kind)
    (start stop : Instant) : Dashboard.rowsIn db repository panel kind start stop =
      (contentOf db).rowsIn repository panel kind start stop := by
  cases panel with
  | issues => exact rowsWith_eq (stored_issues db) _ _ _ _
  | pullRequests => exact rowsWith_eq (stored_pullRequests db) _ _ _ _

/-- The open count over the stored rows. -/
theorem openCount_eq {db : Db} {c : Columns ρ} {items : List ρ} (h : Stored db c items)
    (window : RangeWindow) (repository : Option Str) :
    openCount db c items window repository = items.countP fun r =>
      inScope repository (c.repositoryId r) &&
        inside window.start window.stop (some (c.createdAt r)) && decide (c.state r = lit "OPEN") := by
  have hmap := joined_filter_map h (fun r =>
    Sql.and (Sql.eq (some (c.state r)) (some (lit "OPEN")))
      (Sql.and (between (some (c.createdAt r)) window.start window.stop)
        (repositoryPredicate repository (c.repositoryId r)))) id
  have hlength := congrArg List.length hmap
  rw [List.length_map, List.length_map] at hlength
  unfold openCount
  rw [hlength, ← List.countP_eq_length_filter]
  refine List.countP_congr fun r _ => ?_
  rw [Sql.holds_and, Sql.holds_and, holds_between, holds_repositoryPredicate, Sql.holds_eq]
  simp only [Bool.and_eq_true, decide_eq_true_eq, Option.some.injEq]
  tauto

/-- So is a count of open items. -/
theorem summaryOpenCounts_eq (db : Db) (window : RangeWindow) (repository : Option Str)
    (panel : Panel) : summaryOpenCounts db window repository panel =
      (contentOf db).openIn repository panel window.start window.stop := by
  cases panel with
  | issues => exact openCount_eq (stored_issues db) window repository
  | pullRequests => exact openCount_eq (stored_pullRequests db) window repository

/-! ## The listed repositories

The list is ordered by name with the collation of the server. Two names can compare equal, so the order of
the list is not part of what a content determines.
-/

/-- The ids of the events are those of the active repositories. -/
theorem mem_eventRepositoryIds {collate : Str → Str → Bool} {db : Db} {window : RangeWindow}
    {repository : Option Str} {id : Str} :
    id ∈ eventRepositoryIds collate db window repository ↔
      (contentOf db).Active repository window.start window.stop id := by
  unfold eventRepositoryIds Content.Active
  rw [(List.mergeSort_perm _ _).mem_iff, List.mem_dedup, List.mem_map, eventUnion_eq]
  constructor
  · rintro ⟨e, he, rfl⟩
    obtain ⟨hmem, hselected⟩ := List.mem_filter.mp he
    rw [holds_selects, Bool.and_eq_true] at hselected
    exact ⟨e, hmem, rfl, hselected.2, hselected.1⟩
  · rintro ⟨e, hmem, rfl, hscope, hinside⟩
    refine ⟨e, List.mem_filter.mpr ⟨hmem, ?_⟩, rfl⟩
    rw [holds_selects, hscope, hinside]
    rfl

/-- The option of a repository. -/
def optionOf (r : RepositoryColumns) : RepositoryOption := ⟨r.nodeId, r.nameWithOwner, r.url⟩

/-- Every stored repository is public. -/
theorem holds_publicRepository {db : Db} {r : Repository} (hr : r ∈ db.repositories.rows) :
    Sql.holds (publicRepository r) = true := by
  obtain ⟨hpublic, hexternal⟩ := public_of_find (Keyed.Table.find_of_mem hr)
  simp [publicRepository, Sql.isBool, hpublic, hexternal]

/-- The rows of the named repositories, in the order of their names. -/
theorem repositoryRows_eq {collate : Str → Str → Bool} {db : Db} {ids : List Str} :
    repositoryRows collate db ids =
      ((db.repositories.rows.filter fun r => decide (r.nodeId ∈ ids)).mergeSort fun a b =>
        collate a.nameWithOwner b.nameWithOwner).map fun r => optionOf r.columns := by
  have hfilter : (db.repositories.rows.filter fun r =>
      Sql.holds (Sql.and (Sql.isIn (some r.nodeId) ids) (publicRepository r))) =
        db.repositories.rows.filter fun r => decide (r.nodeId ∈ ids) := by
    refine List.filter_congr fun r hr => ?_
    have hid : Sql.holds (Sql.isIn (some r.nodeId) ids) = decide (r.nodeId ∈ ids) := by
      rw [Bool.eq_iff_iff]
      simp [Sql.isIn]
    rw [Sql.holds_and, holds_publicRepository hr, Bool.and_true, hid]
  unfold repositoryRows
  split_ifs with hids
  · subst hids
    simp
  · rw [hfilter]
    rfl

/-- The listed repositories are those of the ids. -/
theorem mem_repositoryRows {collate : Str → Str → Bool} {db : Db} {ids : List Str}
    {o : RepositoryOption} : o ∈ repositoryRows collate db ids ↔
      ∃ r ∈ (contentOf db).repositories, r.nodeId ∈ ids ∧ o = optionOf r := by
  rw [repositoryRows_eq, List.mem_map]
  simp only [(List.mergeSort_perm _ _).mem_iff, List.mem_filter, decide_eq_true_eq]
  constructor
  · rintro ⟨r, ⟨hr, hid⟩, rfl⟩
    exact ⟨r.columns, List.mem_map_of_mem hr, hid, rfl⟩
  · rintro ⟨_, hcolumns, hid, rfl⟩
    obtain ⟨r, hr, rfl⟩ := List.mem_map.mp hcolumns
    exact ⟨r, ⟨hr, hid⟩, rfl⟩

/-- No repository is listed twice. -/
theorem nodup_repositoryRows (collate : Str → Str → Bool) (db : Db) (ids : List Str) :
    ((repositoryRows collate db ids).map RepositoryOption.nodeId).Nodup := by
  rw [repositoryRows_eq, List.map_map]
  refine ((List.mergeSort_perm _ _).map _).nodup_iff.mpr ?_
  exact db.repositories.nodup.sublist (List.filter_sublist.map _)

/-! ## The body

`Reports` relates a body to a content and a window, field by field, and makes no mention of a database.
That a body of one content reports any other order of it is then a statement about lists.
-/

/-- Every bound that is enumerated is that of a multiple of the width. -/
theorem of_mem_boundsFrom {start stop bucketS lastEpoch : ℤ} {n : ℕ} {first : ℤ} {bounds : List Bound}
    (h : boundsFrom start stop bucketS lastEpoch n first = .ok bounds) (hfirst : bucketS ∣ first)
    {bound : Bound} (hb : bound ∈ bounds) :
    ∃ m, bound = boundAt start stop bucketS (m * bucketS) := by
  induction n generalizing first bounds with
  | zero =>
    cases h
    cases hb
  | succ n ih =>
    unfold boundsFrom at h
    split_ifs at h
    -- one turn of the loop: both edges are datetimes, and the bound is that of the current epoch
    · obtain ⟨current, hcurrent, h⟩ := bind_eq_ok.mp h
      obtain ⟨next, hnext, h⟩ := bind_eq_ok.mp h
      obtain ⟨rest, hrest, h⟩ := bind_eq_ok.mp h
      cases h
      have h0 : InRange 0 := inRange_iff.mpr ⟨by decide, by decide⟩
      obtain ⟨hrange, hcurrent⟩ := (addSeconds_eq_ok h0).mp hcurrent
      rw [← hcurrent] at hrange
      obtain ⟨-, hnext⟩ := (addSeconds_eq_ok hrange).mp hnext
      rcases List.mem_cons.mp hb with rfl | hb
      · obtain ⟨m, rfl⟩ := hfirst
        refine ⟨m, ?_⟩
        rw [boundAt, hnext, hcurrent, zero_add, ← add_mul, mul_comm bucketS m]
      · exact ih hrest (hfirst.add (dvd_refl bucketS)) hb
    · cases h
      cases hb

/-- Every bound is that of a bucket. -/
theorem of_mem_bounds {start stop bucketS : ℤ} {bounds : List Bound}
    (h : denseBucketBounds start stop bucketS = .ok bounds) {bound : Bound} (hb : bound ∈ bounds) :
    ∃ m, bound = boundAt start stop bucketS (m * bucketS) := by
  unfold denseBucketBounds at h
  split_ifs at h
  · cases h
    cases hb
  · exact of_mem_boundsFrom h (dvd_mul_left _ _) hb

/-- A bucket of a body has the edges of its bound, and counts the items between them. -/
structure BucketReports (c : Content) (repository : Option Str) (panel : Panel) (bound : Bound)
    (b : Bucket) : Prop where
  start : b.start = bound.left
  stop : b.stop = bound.right
  counts : ∀ kind ∈ panel.keys, b.counts kind = c.rowsIn repository panel kind b.start b.stop

/-- What a body says of a content. -/
structure Reports (c : Content) (window : RangeWindow) (repository : Option Str) (body : Body) :
    Prop where
  range : body.range = window.name
  bucketS : body.bucketS = window.bucketS
  start : body.start = window.start
  stop : body.stop = window.stop
  buckets : ∃ bounds, denseBucketBounds window.start window.stop window.bucketS = .ok bounds ∧
    ∀ panel, List.Forall₂ (BucketReports c repository panel) bounds (body.buckets panel)
  totals : ∀ panel, ∀ kind ∈ panel.keys,
    body.totals panel kind = c.rowsIn repository panel kind window.start window.stop
  currentlyOpen : ∀ panel,
    body.currentlyOpen panel = c.openIn repository panel window.start window.stop
  /-- The listed repositories are those of the scope with an event in the window, each once. -/
  listed : ∀ o, o ∈ body.repositories ↔ ∃ r ∈ c.repositories,
    c.Active repository window.start window.stop r.nodeId ∧ o = optionOf r
  distinct : (body.repositories.map RepositoryOption.nodeId).Nodup

/-- Contents that differ in the order alone are reported alike. -/
theorem Reports.of_same {c c' : Content} (hsame : c.Same c') {window : RangeWindow}
    {repository : Option Str} {body : Body} (h : Reports c window repository body) :
    Reports c' window repository body where
  range := h.range
  bucketS := h.bucketS
  start := h.start
  stop := h.stop
  buckets := by
    obtain ⟨bounds, hbounds, hbuckets⟩ := h.buckets
    refine ⟨bounds, hbounds, fun panel => (hbuckets panel).imp fun bound b hb => ?_⟩
    exact ⟨hb.start, hb.stop, fun kind hkind => by rw [hb.counts kind hkind, hsame.rowsIn]⟩
  totals panel kind hkind := by rw [h.totals panel kind hkind, hsame.rowsIn]
  currentlyOpen panel := by rw [h.currentlyOpen, hsame.openIn]
  listed o := by
    rw [h.listed]
    refine exists_congr fun r => and_congr hsame.repositories.mem_iff ?_
    rw [hsame.active]
  distinct := h.distinct

/-- A body that is built reports the content of its database. -/
theorem reports_of_build {collate : Str → Str → Bool} {db : Db} {window : RangeWindow}
    {repository : Option Str} {startedAt : Instant} {body : Body}
    (h : dashboardBuild collate db window repository startedAt = .ok body) :
    Reports (contentOf db) window repository body := by
  rw [dashboardBuild_eq] at h
  cases hbounds : denseBucketBounds window.start window.stop window.bucketS with
  | error e =>
    rw [hbounds] at h
    cases h
  | ok bounds =>
    rw [hbounds] at h
    obtain rfl := Except.ok.inj h
    refine ⟨rfl, rfl, rfl, rfl, ⟨bounds, hbounds, fun panel => ?_⟩, fun panel kind hkind => ?_,
      summaryOpenCounts_eq db window repository, fun o => ?_, nodup_repositoryRows _ _ _⟩
    · refine List.forall₂_map_right_iff.mpr (List.forall₂_same.mpr fun bound hb => ?_)
      obtain ⟨m, hbound⟩ := of_mem_bounds hbounds hb
      refine ⟨rfl, rfl, fun kind hkind => ?_⟩
      show (panelFold collate db window repository panel).byEpoch bound.epoch kind =
        (contentOf db).rowsIn repository panel kind bound.left bound.right
      rw [hbound, ← rowsIn_eq]
      exact byEpoch_eq collate db window repository hkind m
    · rw [← rowsIn_eq]
      exact totals_eq collate db window repository hkind
    · refine mem_repositoryRows.trans (exists_congr fun r => and_congr_right fun _ => ?_)
      rw [mem_eventRepositoryIds]

/-! ## The answer

A request can be refused or raise before it builds anything. These cases depend on the content as well: on
the ids for a repository, on the earliest event for `all`.
-/

/-- Two bodies say the same; the list of repositories is compared without its order. -/
structure SaysSame (b b' : Body) : Prop where
  range : b.range = b'.range
  bucketS : b.bucketS = b'.bucketS
  start : b.start = b'.start
  stop : b.stop = b'.stop
  buckets : ∀ panel, List.Forall₂ (fun x y : Bucket => x.start = y.start ∧ x.stop = y.stop ∧
    ∀ kind ∈ panel.keys, x.counts kind = y.counts kind) (b.buckets panel) (b'.buckets panel)
  totals : ∀ panel, ∀ kind ∈ panel.keys, b.totals panel kind = b'.totals panel kind
  currentlyOpen : b.currentlyOpen = b'.currentlyOpen
  repositories : b.repositories.Perm b'.repositories

/-- Lists related to the same list are related. -/
theorem forall₂_of_common {α β γ : Type} {R : α → β → Prop} {S : α → γ → Prop} {T : β → γ → Prop}
    (hT : ∀ a b c, R a b → S a c → T b c) {as : List α} {bs : List β} {cs : List γ}
    (hR : List.Forall₂ R as bs) (hS : List.Forall₂ S as cs) : List.Forall₂ T bs cs := by
  induction hR generalizing cs with
  | nil =>
    cases hS
    exact .nil
  | cons hab _ ih =>
    cases hS with
    | cons hac hrest => exact .cons (hT _ _ _ hab hac) (ih hrest)

/-- A content is reported in one way. -/
theorem Reports.saysSame {c : Content} {window : RangeWindow} {repository : Option Str} {b b' : Body}
    (h : Reports c window repository b) (h' : Reports c window repository b') : SaysSame b b' where
  range := h.range.trans h'.range.symm
  bucketS := h.bucketS.trans h'.bucketS.symm
  start := h.start.trans h'.start.symm
  stop := h.stop.trans h'.stop.symm
  buckets panel := by
    obtain ⟨bounds, hbounds, hbuckets⟩ := h.buckets
    obtain ⟨bounds', hbounds', hbuckets'⟩ := h'.buckets
    obtain rfl : bounds = bounds' := Except.ok.inj (hbounds.symm.trans hbounds')
    refine forall₂_of_common (fun bound x y hx hy => ?_) (hbuckets panel) (hbuckets' panel)
    have hstart : x.start = y.start := hx.start.trans hy.start.symm
    have hstop : x.stop = y.stop := hx.stop.trans hy.stop.symm
    refine ⟨hstart, hstop, fun kind hkind => ?_⟩
    rw [hx.counts kind hkind, hy.counts kind hkind, hstart, hstop]
  totals panel kind hkind := (h.totals panel kind hkind).trans (h'.totals panel kind hkind).symm
  currentlyOpen := funext fun panel => (h.currentlyOpen panel).trans (h'.currentlyOpen panel).symm
  repositories := by
    refine (List.perm_ext_iff_of_nodup (List.Nodup.of_map _ h.distinct)
      (List.Nodup.of_map _ h'.distinct)).mpr fun o => ?_
    rw [h.listed, h'.listed]

/-- Two answers to a request: the same failure, or bodies that say the same. -/
inductive SameAnswer : Except Failure Body → Except Failure Body → Prop where
  | failed (f : Failure) : SameAnswer (.error f) (.error f)
  | answered {b b' : Body} (h : SaysSame b b') : SameAnswer (.ok b) (.ok b')

/-- A repository is accepted exactly when it is in the content. -/
theorem any_publicRepository (db : Db) (id : Str) :
    (db.repositories.find id).any (fun r => Sql.holds (publicRepository r)) =
      decide (id ∈ (contentOf db).repositories.map RepositoryColumns.nodeId) := by
  have hnames : (contentOf db).repositories.map RepositoryColumns.nodeId =
      db.repositories.rows.map Repository.nodeId := List.map_map
  rw [hnames]
  cases hfind : db.repositories.find id with
  | none =>
    refine (decide_eq_false fun hmem => ?_).symm
    obtain ⟨r, hr, hid⟩ := List.mem_map.mp hmem
    exact Keyed.Table.find_eq_none.mp hfind r hr hid
  | some r =>
    obtain ⟨hr, hid⟩ := Keyed.Table.find_eq_some.mp hfind
    rw [Option.any_some, holds_publicRepository hr]
    exact (decide_eq_true (List.mem_map.mpr ⟨r, hr, hid⟩)).symm

section Same

variable {db db' : Db} (h : (contentOf db).Same (contentOf db'))
include h

/-- The earliest event is that of the content. -/
theorem eventBounds_congr (repository : Option Str) :
    eventBounds db repository = eventBounds db' repository := by
  have hearliest (t : Instant) : IsEarliest db repository t ↔ IsEarliest db' repository t := by
    unfold IsEarliest
    simp only [eventUnion_eq, h.events.mem_iff]
  ext t
  rw [eventBounds_eq_some_iff, eventBounds_eq_some_iff, hearliest]

/-- The window depends on the content alone. -/
theorem buildWindow_congr (printable : CodePoint → Bool) (clock : ReadClock) (rng : Str)
    (repository : Option Str) :
    buildWindow printable db clock rng repository = buildWindow printable db' clock rng repository := by
  unfold buildWindow allWindow
  rw [eventBounds_congr h]

/-- So does whether a repository is refused. -/
theorem validateRepository_congr (repository : Option Str) :
    validateRepository db repository = validateRepository db' repository := by
  cases repository with
  | none => rfl
  | some id =>
    have hmem := (h.repositories.map RepositoryColumns.nodeId).mem_iff (a := id)
    simp only [validateRepository, any_publicRepository, decide_eq_decide.mpr hmem]

/-- Requests to databases of one content have the same answer. -/
theorem answers_of_same (printable : CodePoint → Bool) (collate : Str → Str → Bool) (clock : ReadClock)
    (rng : Str) (repository : Option Str) :
    SameAnswer (dashboard printable collate db clock rng repository)
      (dashboard printable collate db' clock rng repository) := by
  unfold dashboard
  rw [validateRepository_congr h, buildWindow_congr h]
  cases validateRepository db' repository with
  | error f => exact .failed f
  | ok u =>
    cases buildWindow printable db' clock rng repository with
    | error f => exact .failed f
    | ok window =>
      show SameAnswer ((dashboardBuild collate db window repository clock.startedAt).mapError .raised)
        ((dashboardBuild collate db' window repository clock.startedAt).mapError .raised)
      have hbuild := dashboardBuild_eq collate db window repository clock.startedAt
      have hbuild' := dashboardBuild_eq collate db' window repository clock.startedAt
      cases hbounds : denseBucketBounds window.start window.stop window.bucketS with
      | error e =>
        rw [hbuild, hbuild', hbounds]
        exact .failed (.raised e)
      | ok bounds =>
        rw [hbounds] at hbuild hbuild'
        have hreports := (reports_of_build hbuild).of_same h
        rw [hbuild, hbuild']
        exact .answered (hreports.saysSame (reports_of_build hbuild'))

end Same

end Ghpulse.Dashboard
