import Ghpulse.Library.Js

/-!
# The dashboard view model

How the page reads the body of `GET /api/dashboard`: timestamps become milliseconds, and rows without a
positive length are dropped.

Reference: `src/app.jsx`.
-/

open Python Js

namespace Ghpulse.Web

/-! ## Series

The series of the two charts, with their keys, labels and colours.
-/

/-- A series of a chart. -/
structure Series where
  key : Str
  label : Str
  color : Str

/-- `SERIES_COLORS`. -/
def seriesColors : List (Str × Str) :=
  [(lit "opened", lit "#00d4aa"), (lit "completed", lit "#ff9c5a"), (lit "not_planned", lit "#a98bff"),
    (lit "merged", lit "#61d5ff"), (lit "closed_unmerged", lit "#ff4d6d")]

/-- A series with the colour of its key. -/
def series (key label : String) : Series :=
  ⟨lit key, lit label, (seriesColors.lookup (lit key)).getD []⟩

/-- `ISSUE_SERIES`. -/
def issueSeries : List Series :=
  [series "opened" "Opened", series "completed" "Completed", series "not_planned" "Not planned"]

/-- `PR_SERIES`. -/
def pullRequestSeries : List Series :=
  [series "opened" "Opened", series "merged" "Merged", series "closed_unmerged" "Closed unmerged"]

/-! ## Timestamps

A text that is a number is that number, and any other one is given to `Date.parse`; what is not finite
becomes `NaN`.
-/

/-- `Number.isFinite(n) ? n : NaN`. -/
def finiteOrNaN : Number → Number
  | .finite q => .finite q
  | _ => .nan

/-- `parseTimestamp`. -/
def parseTimestamp (js : Runtime) : Value → Except Thrown Number
  | .undefined | .null | .string [] => .ok .nan
  | .number n => .ok (finiteOrNaN n)
  | value => do
    match ← number js value with
    | .finite q =>
      if trim Js.isSpace (toText js value) ≠ [] then return .finite q
      else return finiteOrNaN (js.dateParse (toText js value))
    | _ => return finiteOrNaN (js.dateParse (toText js value))

/-! ## Rows

A row is kept with all its fields, and gets its ends in milliseconds. Comparisons with `NaN` are false, so
a row whose ends cannot be read is dropped.
-/

/-- The row that `normalizeBuckets` makes of one of the body. -/
def normalizeRow (js : Runtime) (row : Value) : Except Thrown Value :=
  if row.isNullish then .error .engine
  else do
    let start ← parseTimestamp js (row.get (lit "start"))
    let stop ← parseTimestamp js (row.get (lit "end"))
    return .object (setField (lit "end") (.number stop) (setField (lit "start") (.number start) row.fields))

/-- The filter of `normalizeBuckets`. -/
def hasLength (row : Value) : Bool :=
  match (row.get (lit "start")).finite?, (row.get (lit "end")).finite? with
  | some start, some stop => decide (start < stop)
  | _, _ => false

/-- `normalizeBuckets`. The indices of a row that is an array or a text are not copied: such a row has no
`start`, and does not pass the filter. -/
def normalizeBuckets (js : Runtime) (rows : Value) : Except Thrown (List Value) := do
  let normalized ← rows.elements.mapM (normalizeRow js)
  return normalized.filter hasLength

/-! ## The view model

A start that cannot be read is replaced by the time a day ago, and an end that cannot be read, or is not
later, by the time a day after the start.
-/

/-- The rows and the series of a panel. -/
structure PanelView where
  events : List Value
  series : List Series

/-- What `dashboardToViewModel` returns; the range is in milliseconds. -/
structure ViewModel where
  start : ℚ
  stop : ℚ
  binMs : ℚ
  issues : PanelView
  pullRequests : PanelView
  summary : Value
  repositories : List Value
  generatedAt : Value

/-- A day in milliseconds. -/
def dayMs : ℚ := 86400000

/-- `safeStart`. -/
def safeStart (js : Runtime) (start : Number) : ℚ :=
  match start with
  | .finite q => q
  | _ => js.now - dayMs

/-- `safeEnd`. -/
def safeEnd (safeStart : ℚ) (stop : Number) : ℚ :=
  match stop with
  | .finite q => if safeStart < q then q else safeStart + dayMs
  | _ => safeStart + dayMs

/-- `binMs`. -/
def binWidth (safeStart safeEnd : ℚ) (bucketS : Number) : ℚ :=
  match bucketS with
  | .finite q => if 0 < q then q * 1000 else safeEnd - safeStart
  | _ => safeEnd - safeStart

/-- `dashboardToViewModel`. -/
def dashboardToViewModel (js : Runtime) (body : Value) : Except Thrown ViewModel := do
  let source := body.or (.object [])
  let start ← parseTimestamp js (source.get (lit "start"))
  let stop ← parseTimestamp js (source.get (lit "end"))
  let start := safeStart js start
  let stop := safeEnd start stop
  let bucketS ← number js (source.get (lit "bucket_s"))
  let issues ← normalizeBuckets js (source.get (lit "issues"))
  let pullRequests ← normalizeBuckets js (source.get (lit "pull_requests"))
  return {
    start, stop
    binMs := binWidth start stop bucketS
    issues := ⟨issues, issueSeries⟩
    pullRequests := ⟨pullRequests, pullRequestSeries⟩
    summary := (source.get (lit "summary")).or (.object [])
    repositories := (source.get (lit "repositories")).elements
    generatedAt := (source.get (lit "generated_at")).or .null }

end Ghpulse.Web
