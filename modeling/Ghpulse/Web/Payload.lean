import Ghpulse.Dashboard.Buckets
import Ghpulse.Dashboard.Tiles
import Ghpulse.Web.Chart
import Mathlib.Algebra.BigOperators.Ring.Finset

/-!
# The dashboard body in the browser

The body of `GET /api/dashboard` as JSON, and what the page makes of it: the view model with its
milliseconds, and the data of both charts. Only the reading of ISO timestamps is assumed, for those in the
body.

Reference: `backend/api_dashboard.py`, `backend/api_common.py`, `src/app.jsx`, `src/dashboard-charts.jsx`.
-/

open Python Js Ghpulse.Ingest Ghpulse.Web

namespace Ghpulse.Dashboard

/-! ## The body as JSON

As the route returns it, with the texts that `isoformat` writes. All numbers in it are integers.
-/

/-- `_iso`. -/
def iso : Option Instant → Value
  | none => .null
  | some t => .string (isoformat t)

/-- A count. -/
def countJson (n : ℕ) : Value := .number (.finite n)

/-- `response_bucket`. -/
def bucketJson (keys : List Kind) (b : Bucket) : Value :=
  .object ((lit "ts", iso (some b.start)) :: (lit "start", iso (some b.start)) ::
    (lit "end", iso (some b.stop)) :: keys.map fun kind => (kind.text, countJson (b.counts kind)))

/-- `body["summary"][panel]`. -/
def Body.panelSummary (body : Body) (panel : Panel) : Value :=
  .object ((panel.keys.map fun kind => (kind.text, countJson (body.totals panel kind))) ++
    [(lit "currently_open", countJson (body.currentlyOpen panel))])

/-- An entry of `body["repositories"]`. -/
def RepositoryOption.toJson (r : RepositoryOption) : Value :=
  .object [(lit "node_id", .string r.nodeId), (lit "name_with_owner", .string r.nameWithOwner),
    (lit "url", .string r.url)]

/-- The dictionary that `_dashboard_build` returns. -/
def Body.toJson (body : Body) : Value :=
  .object [
    (lit "range", .string body.range),
    (lit "bucket_s", .number (.finite body.bucketS)),
    (lit "start", iso (some body.start)),
    (lit "end", iso (some body.stop)),
    (lit "issues", .array ((body.buckets .issues).map (bucketJson issueKeys))),
    (lit "pull_requests", .array ((body.buckets .pullRequests).map (bucketJson pullRequestKeys))),
    (lit "summary", .object [
      (lit "repositories", countJson body.repositories.length),
      (lit "issues", body.panelSummary .issues),
      (lit "pull_requests", body.panelSummary .pullRequests),
      (lit "last_ingest", iso body.lastIngest)]),
    (lit "repositories", .array (body.repositories.map RepositoryOption.toJson)),
    (lit "generated_at", iso (some body.generatedAt))]

/-- The timestamps that the charts read. -/
def Body.timestamps (body : Body) : List Instant :=
  body.start :: body.stop :: [Panel.issues, Panel.pullRequests].flatMap fun panel =>
    (body.buckets panel).flatMap fun b => [b.start, b.stop]

/-! ## What the page shows

A panel reads its rows and its series from the view model, and builds the data of its chart from them.
-/

/-- The rows and the series of a panel. -/
def panelView (view : ViewModel) : Panel → PanelView
  | .issues => view.issues
  | .pullRequests => view.pullRequests

/-- The data of the chart of a panel. -/
def chart (js : Runtime) (view : ViewModel) (panel : Panel) : Except Thrown StackedData :=
  buildStackedTimeSeriesData js (.array (panelView view panel).events) (panelView view panel).series
    ⟨.finite view.start, .finite view.stop⟩ (.finite view.binMs)

/-- The count of a series in the summary. -/
def summaryCount (view : ViewModel) (panel : Panel) (key : Str) : Value :=
  (view.summary.get panel.text).get key

/-- The total of a series and the end of its line are its count in the summary. -/
def SeriesAgrees (view : ViewModel) (panel : Panel) (data : StackedData) (key : Str) : Prop :=
  summaryCount view panel key = .number (.finite (data.totals key)) ∧
    (data.cumulative key).getLast?.map Point.v = some (data.totals key)

/-- Both charts of a body are drawn and agree with its summary. -/
def ChartsAgree (js : Runtime) (body : Value) : Prop :=
  ∃ view, dashboardToViewModel js body = .ok view ∧
    ∀ panel, ∃ data, chart js view panel = .ok data ∧
      ∀ item ∈ (panelView view panel).series, SeriesAgrees view panel data item.key

/-! ## The view model of a body

Instants become milliseconds, and buckets without a length in them are dropped. Under the assumption on
`Date.parse` nothing throws.
-/

/-- An instant in milliseconds, as `Date.parse` keeps it. -/
def millis (t : Instant) : ℤ := t / 1000

/-- What `Date.parse` makes of the ISO text of a timestamp. -/
def ReadsMillis (js : Runtime) (t : Instant) : Prop :=
  js.dateParse (isoformat t) = .finite (millis t)

/-- A row of the view model. -/
def chartRow (keys : List Kind) (b : Bucket) : Value :=
  .object ((lit "ts", iso (some b.start)) :: (lit "start", .number (.finite (millis b.start))) ::
    (lit "end", .number (.finite (millis b.stop))) ::
      keys.map fun kind => (kind.text, countJson (b.counts kind)))

/-- The buckets that are still there in milliseconds. -/
def Body.shown (body : Body) (panel : Panel) : List Bucket :=
  (body.buckets panel).filter fun b => decide (millis b.start < millis b.stop)

/-- The rows and the series of a panel of a body. -/
def Body.panelView (body : Body) : Panel → PanelView
  | .issues => ⟨(body.shown .issues).map (chartRow issueKeys), issueSeries⟩
  | .pullRequests => ⟨(body.shown .pullRequests).map (chartRow pullRequestKeys), pullRequestSeries⟩

/-- The end of the range that the page shows. -/
def Body.shownStop (body : Body) : ℚ :=
  if (millis body.start : ℚ) < millis body.stop then millis body.stop else millis body.start + dayMs

/-- The view model of a body. -/
def Body.view (body : Body) : ViewModel where
  start := millis body.start
  stop := body.shownStop
  binMs := body.bucketS * 1000
  issues := body.panelView .issues
  pullRequests := body.panelView .pullRequests
  summary := .object [
    (lit "repositories", countJson body.repositories.length),
    (lit "issues", body.panelSummary .issues),
    (lit "pull_requests", body.panelSummary .pullRequests),
    (lit "last_ingest", iso body.lastIngest)]
  repositories := body.repositories.map RepositoryOption.toJson
  generatedAt := iso (some body.generatedAt)

section View

variable {js : Runtime}

/-- A datetime that the backend writes is read back. -/
theorem parseTimestamp_iso {t : Instant} (h : ReadsMillis js t) :
    Web.parseTimestamp js (iso (some t)) = .ok (.finite (millis t)) := by
  have hnumber : number js (.string (isoformat t)) = .ok .nan :=
    congrArg Except.ok (numberOfText_isoformat js t)
  have hdate : js.dateParse (toText js (.string (isoformat t))) = .finite (millis t) := h
  have hne := isoformat_ne_nil t
  rw [iso]
  generalize isoformat t = text at *
  obtain ⟨c, cs, rfl⟩ := List.exists_cons_of_ne_nil hne
  rw [Web.parseTimestamp, hnumber]
  · exact congrArg (fun n => Except.ok (finiteOrNaN n)) hdate
  all_goals simp

/-- The row of a bucket. -/
theorem normalizeRow_bucketJson (keys : List Kind) {b : Bucket} (hstart : ReadsMillis js b.start)
    (hstop : ReadsMillis js b.stop) :
    normalizeRow js (bucketJson keys b) = .ok (chartRow keys b) := by
  have hleft : (bucketJson keys b).get (lit "start") = iso (some b.start) := rfl
  have hright : (bucketJson keys b).get (lit "end") = iso (some b.stop) := rfl
  have hobject : (bucketJson keys b).isNullish = false := rfl
  rw [normalizeRow, hobject, hleft, hright, parseTimestamp_iso hstart, parseTimestamp_iso hstop]
  rfl

/-- A row has a length when its milliseconds differ. -/
theorem hasLength_chartRow (keys : List Kind) (b : Bucket) :
    hasLength (chartRow keys b) = decide (millis b.start < millis b.stop) := by
  have hdecide : hasLength (chartRow keys b) =
      decide ((millis b.start : ℚ) < (millis b.stop : ℚ)) := rfl
  rw [hdecide]
  exact decide_eq_decide.mpr Int.cast_lt

/-- The rows of a panel. -/
theorem normalizeBuckets_buckets (keys : List Kind) {buckets : List Bucket}
    (h : ∀ b ∈ buckets, ReadsMillis js b.start ∧ ReadsMillis js b.stop) :
    normalizeBuckets js (.array (buckets.map (bucketJson keys))) =
      .ok ((buckets.filter fun b => decide (millis b.start < millis b.stop)).map (chartRow keys)) := by
  have hrows : (Value.array (buckets.map (bucketJson keys))).elements.mapM (normalizeRow js) =
      .ok (buckets.map (chartRow keys)) := by
    show (buckets.map (bucketJson keys)).mapM (normalizeRow js) = _
    rw [List.mapM_map]
    exact mapM_eq_ok fun b hb => normalizeRow_bucketJson keys (h b hb).1 (h b hb).2
  have hfilter : (buckets.map (chartRow keys)).filter hasLength =
      (buckets.filter fun b => decide (millis b.start < millis b.stop)).map (chartRow keys) := by
    rw [List.filter_map]
    exact congrArg _ (List.filter_congr fun b _ => hasLength_chartRow keys b)
  rw [normalizeBuckets, hrows, ← hfilter]
  rfl

/-- The view model of a body. -/
theorem dashboardToViewModel_toJson {body : Body} (hpos : 0 < body.bucketS)
    (h : ∀ t ∈ body.timestamps, ReadsMillis js t) :
    dashboardToViewModel js body.toJson = .ok body.view := by
  -- each edge of a bucket is among the timestamps that the charts read
  have hbuckets (panel : Panel) :
      ∀ b ∈ body.buckets panel, ReadsMillis js b.start ∧ ReadsMillis js b.stop := by
    intro b hb
    have hpanel : panel ∈ [Panel.issues, Panel.pullRequests] := by cases panel <;> decide
    have hmem (t : Instant) (ht : t ∈ [b.start, b.stop]) : t ∈ body.timestamps :=
      List.mem_cons_of_mem _ (List.mem_cons_of_mem _
        (List.mem_flatMap.mpr ⟨panel, hpanel, List.mem_flatMap.mpr ⟨b, hb, ht⟩⟩))
    exact ⟨h _ (hmem _ (by simp)), h _ (hmem _ (by simp))⟩
  have hstart : Web.parseTimestamp js (body.toJson.get (lit "start")) = .ok (.finite (millis body.start)) :=
    parseTimestamp_iso (h _ (by simp [Body.timestamps]))
  have hstop : Web.parseTimestamp js (body.toJson.get (lit "end")) = .ok (.finite (millis body.stop)) :=
    parseTimestamp_iso (h _ (by simp [Body.timestamps]))
  have hissues : normalizeBuckets js (body.toJson.get (lit "issues")) =
      .ok (body.panelView .issues).events := normalizeBuckets_buckets _ (hbuckets .issues)
  have hpullRequests : normalizeBuckets js (body.toJson.get (lit "pull_requests")) =
      .ok (body.panelView .pullRequests).events := normalizeBuckets_buckets _ (hbuckets .pullRequests)
  have hwidth : binWidth (millis body.start) body.shownStop (.finite body.bucketS) = body.bucketS * 1000 :=
    if_pos (by exact_mod_cast hpos)
  have hsource : body.toJson.or (.object []) = body.toJson := rfl
  unfold dashboardToViewModel
  dsimp only
  rw [hsource, hstart, hstop, hissues, hpullRequests]
  show Except.ok _ = _
  refine congrArg Except.ok ?_
  rw [Body.view, ViewModel.mk.injEq]
  refine ⟨rfl, rfl, hwidth, rfl, rfl, rfl, rfl, rfl⟩
end View

/-! ## The charts of a body

The rows of a body are dense, so the chart is drawn exactly when they tile the range; what it counts is
then what the shown buckets count.
-/

/-- The ends of a bucket in milliseconds. -/
def Bucket.ends (b : Bucket) : ℚ × ℚ := (millis b.start, millis b.stop)

/-- The bin of a bucket. -/
def Bucket.bin (keys : List Kind) (b : Bucket) : Bin :=
  let values := valuesOf (keys.map Kind.text) (keys.map fun kind => (b.counts kind : ℚ))
  ⟨millis b.start, millis b.stop, values, ((keys.map Kind.text).map values).sum⟩

/-- The bins of the buckets that are shown. -/
def Body.bins (body : Body) (panel : Panel) : List Bin :=
  (body.shown panel).map (Bucket.bin panel.keys)

section Charts

variable {js : Runtime} {body : Body} {panel : Panel}

/-- The keys of a panel are those of its series. -/
theorem map_key_series (body : Body) (panel : Panel) :
    (body.panelView panel).series.map Series.key = panel.keys.map Kind.text := by
  cases panel <;> rfl

/-- The view of a panel is that of the body. -/
theorem panelView_view (body : Body) (panel : Panel) :
    panelView body.view panel = body.panelView panel := by
  cases panel <;> rfl

/-- The events of a panel are the rows of its shown buckets. -/
theorem events_panelView (body : Body) (panel : Panel) :
    (body.panelView panel).events = (body.shown panel).map (chartRow panel.keys) := by
  cases panel <;> rfl

/-- The series of a panel are valid. -/
theorem validateSeries_series (body : Body) (panel : Panel) :
    validateSeries (body.panelView panel).series = .ok () := by
  cases panel <;> rfl

/-- What is shown ends after its start. -/
theorem start_lt_shownStop (body : Body) : (millis body.start : ℚ) < body.shownStop := by
  unfold Body.shownStop
  split_ifs with hlt
  · exact hlt
  · exact lt_add_of_pos_right _ (by norm_num [dayMs])

/-- The value of a bin for a key of its panel is the count of the bucket. -/
theorem bin_values {kind : Kind} (hkind : kind ∈ panel.keys) (b : Bucket) :
    (b.bin panel.keys).values kind.text = b.counts kind := by
  cases panel <;> simp only [Panel.keys, issueKeys, pullRequestKeys, List.mem_cons, List.not_mem_nil,
    or_false] at hkind <;> rcases hkind with rfl | rfl | rfl <;> rfl

/-- The row of a bucket has the counts of its panel. -/
theorem eventAmount_chartRow {kind : Kind} (hkind : kind ∈ panel.keys) (b : Bucket) :
    eventAmount js ((chartRow panel.keys b).get kind.text) 0 = .ok (b.counts kind : ℚ) := by
  have hfield : (chartRow panel.keys b).get kind.text = countJson (b.counts kind) := by
    cases panel <;> simp only [Panel.keys, issueKeys, pullRequestKeys, List.mem_cons, List.not_mem_nil,
      or_false] at hkind <;> rcases hkind with rfl | rfl | rfl <;> rfl
  rw [hfield]
  exact congrArg Except.ok (max_eq_right (Nat.cast_nonneg _))

/-- The row of a bucket that is shown has a bin. -/
theorem rowBin_chartRow {b : Bucket} (hb : b ∈ body.shown panel) :
    rowBin js (panel.keys.map Kind.text) (chartRow panel.keys b) = some (b.bin panel.keys) := by
  have hlt : (millis b.start : ℚ) < millis b.stop := by
    exact_mod_cast of_decide_eq_true (List.mem_filter.mp hb).2
  refine rowBin_eq_some.mpr ⟨if_neg (not_le.mpr hlt), _, ?_, rfl, rfl⟩
  rw [List.mapM_map]
  exact mapM_eq_ok fun kind hkind => eventAmount_chartRow hkind b

/-- The range and the bin width of a body. -/
def Body.axis (body : Body) (hpos : 0 < body.bucketS) : Axis where
  start := millis body.start
  stop := body.shownStop
  binMs := body.bucketS * 1000
  start_lt_stop := start_lt_shownStop body
  binMs_pos := mul_pos (by exact_mod_cast hpos) (by norm_num)

/-- The view of a body is a valid axis. -/
theorem validate_view (hpos : 0 < body.bucketS) :
    validateTimeSeriesInputs ⟨.finite body.view.start, .finite body.view.stop⟩
      (.finite body.view.binMs) = .ok (body.axis hpos) := validate_axis (body.axis hpos)

variable (hpos : 0 < body.bucketS)
include hpos

/-- Without a bucket that is shown the chart is empty. -/
theorem chart_of_shown_eq_nil (h : body.shown panel = []) : chart js body.view panel =
    .ok ⟨emptyBins (body.axis hpos), cumulativePoints (body.axis hpos) (emptyBins (body.axis hpos)),
      fun _ => 0⟩ := by
  rw [chart, panelView_view, events_panelView, h]
  exact buildStackedTimeSeriesData_nil (validate_view hpos) (validateSeries_series body panel)

/-- Otherwise the buckets that are shown become the bins, when they tile the range. -/
theorem chart_eq_ok (h : body.shown panel ≠ []) {data : StackedData} :
    chart js body.view panel = .ok data ↔
      Tiling.Tiles (millis body.start : ℚ) body.shownStop ((body.shown panel).map Bucket.ends) ∧
        data = ⟨body.bins panel, cumulativePoints (body.axis hpos) (body.bins panel),
          fun key => ((body.bins panel).map fun bin => bin.values key).sum⟩ := by
  have hdense : denseIntervalInput (.array ((body.shown panel).map (chartRow panel.keys))) = true := by
    obtain ⟨b, rest, hshown⟩ := List.exists_cons_of_ne_nil h
    rw [hshown]
    rfl
  have hrows : ((body.shown panel).map (chartRow panel.keys)).map
      (rowBin js (panel.keys.map Kind.text)) = (body.bins panel).map some := by
    rw [Body.bins, List.map_map, List.map_map]
    exact List.map_congr_left fun b hb => rowBin_chartRow hb
  have hends : (body.bins panel).map Bin.interval = (body.shown panel).map Bucket.ends := by
    rw [Body.bins, List.map_map]
    rfl
  have hne : (body.shown panel).map (chartRow panel.keys) ≠ [] := by
    rwa [Ne, List.map_eq_nil_iff]
  rw [chart, panelView_view, events_panelView, buildStackedTimeSeriesData_dense (validate_view hpos)
    (validateSeries_series body panel) hdense]
  simp only [normalizedDenseIntervals_eq_ok hne, map_key_series, hrows]
  constructor
  · rintro ⟨bins, ⟨hbins, htiles⟩, rfl⟩
    obtain rfl := List.map_injective_iff.mpr (Option.some_injective _) hbins
    exact ⟨hends ▸ htiles, rfl⟩
  · rintro ⟨htiles, rfl⟩
    exact ⟨_, ⟨rfl, hends ▸ htiles⟩, rfl⟩

/-- The chart is drawn exactly when no bucket is shown or the buckets that are shown tile the range. -/
theorem chart_returns_iff : (∃ data, chart js body.view panel = .ok data) ↔
    (body.shown panel ≠ [] →
      Tiling.Tiles (millis body.start : ℚ) body.shownStop ((body.shown panel).map Bucket.ends)) := by
  by_cases h : body.shown panel = []
  · exact iff_of_true ⟨_, chart_of_shown_eq_nil hpos h⟩ fun hne => absurd h hne
  · simp only [chart_eq_ok hpos h]
    exact ⟨fun ⟨_, htiles, _⟩ _ => htiles, fun htiles => ⟨_, htiles h, rfl⟩⟩

/-- What the chart counts of a kind are the buckets that are shown, and its line ends there. -/
theorem chart_totals {data : StackedData} (hdata : chart js body.view panel = .ok data) {kind : Kind}
    (hkind : kind ∈ panel.keys) :
    data.totals kind.text = (((body.shown panel).map fun b => b.counts kind).sum : ℕ) ∧
      (data.cumulative kind.text).getLast?.map Point.v = some (data.totals kind.text) := by
  by_cases h : body.shown panel = []
  · rw [chart_of_shown_eq_nil hpos h] at hdata
    cases hdata
    rw [getLast?_cumulativePoints, h]
    simp [emptyBins, Function.comp_def]
  · obtain ⟨-, rfl⟩ := (chart_eq_ok hpos h).mp hdata
    refine ⟨?_, getLast?_cumulativePoints _ _ _⟩
    show ((body.bins panel).map fun bin => bin.values kind.text).sum = _
    rw [Body.bins, List.map_map, Nat.cast_list_sum, List.map_map]
    exact congrArg List.sum (List.map_congr_left fun b _ => bin_values hkind b)

/-- The charts of a body agree with its summary exactly when the buckets that are shown tile the range of
their panel and contain all that the summary counts. -/
theorem chartsAgree_toJson_iff (hreads : ∀ t ∈ body.timestamps, ReadsMillis js t) :
    ChartsAgree js body.toJson ↔ ∀ panel,
      (body.shown panel ≠ [] →
        Tiling.Tiles (millis body.start : ℚ) body.shownStop ((body.shown panel).map Bucket.ends)) ∧
      ∀ kind ∈ panel.keys,
        body.totals panel kind = ((body.shown panel).map fun b => b.counts kind).sum := by
  have hview := dashboardToViewModel_toJson hpos hreads
  have hseries (p : Str → Prop) (panel : Panel) :
      (∀ item ∈ (panelView body.view panel).series, p item.key) ↔ ∀ kind ∈ panel.keys, p kind.text := by
    rw [panelView_view, ← List.forall_mem_map (f := Series.key), map_key_series, List.forall_mem_map]
  have hsummary (panel : Panel) {kind : Kind} (hkind : kind ∈ panel.keys) (q : ℚ) :
      summaryCount body.view panel kind.text = .number (.finite q) ↔
        (body.totals panel kind : ℚ) = q := by
    have hfield : summaryCount body.view panel kind.text = countJson (body.totals panel kind) := by
      cases panel <;> simp only [Panel.keys, issueKeys, pullRequestKeys, List.mem_cons, List.not_mem_nil,
        or_false] at hkind <;> rcases hkind with rfl | rfl | rfl <;> rfl
    rw [hfield, countJson, Value.number.injEq, Number.finite.injEq]
  unfold ChartsAgree
  simp only [hview, Except.ok.injEq, exists_eq_left']
  constructor
  · intro h panel
    obtain ⟨data, hdata, hitems⟩ := h panel
    refine ⟨(chart_returns_iff hpos).mp ⟨data, hdata⟩, fun kind hkind => ?_⟩
    have hcount := ((hseries (SeriesAgrees body.view panel data) panel).mp hitems kind hkind).1
    rw [hsummary panel hkind, (chart_totals hpos hdata hkind).1] at hcount
    exact_mod_cast hcount
  · intro h panel
    obtain ⟨htiles, htotals⟩ := h panel
    obtain ⟨data, hdata⟩ := (chart_returns_iff hpos).mpr htiles
    refine ⟨data, hdata, (hseries (SeriesAgrees body.view panel data) panel).mpr fun kind hkind => ?_⟩
    obtain ⟨hdrawn, hlast⟩ := chart_totals hpos hdata hkind
    exact ⟨(hsummary panel hkind _).mpr (by rw [hdrawn, htotals kind hkind]), hlast⟩

end Charts

end Ghpulse.Dashboard
