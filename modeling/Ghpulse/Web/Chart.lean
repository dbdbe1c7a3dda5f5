import Ghpulse.Library.Tiling
import Ghpulse.Web.ViewModel

/-!
# Stacked time series

The data of a chart: bins over the selected range, the running sum of each series and its total. Rows with
a `start` and an `end` are taken as the bins themselves and must partition the range; other events are
put into regular bins. `values` and `totals` are functions of the key, and only the keys of the series are
read.

Reference: `src/dashboard-charts.jsx`.
-/

open Python Js

namespace Ghpulse.Web

/-! ## Inputs

Values of the page are arbitrary values of the language, and the checks of the source decide which of them
are numbers. The checks throw in the order of the source, with the texts of the source.
-/

/-- The range of a chart, in milliseconds. -/
structure Range where
  start : Number
  stop : Number

/-- A range and a bin width that `validateTimeSeriesInputs` lets through. -/
structure Axis where
  start : ℚ
  stop : ℚ
  binMs : ℚ
  start_lt_stop : start < stop
  binMs_pos : 0 < binMs

/-- `validateTimeSeriesInputs`. -/
def validateTimeSeriesInputs (range : Range) (binMs : Number) : Except Thrown Axis :=
  match range.start, range.stop, binMs with
  | .finite start, .finite stop, .finite binMs =>
    if h : start < stop ∧ 0 < binMs then .ok ⟨start, stop, binMs, h.1, h.2⟩
    else .error (.typeError (lit "Invalid time-series range or bin width"))
  | _, _, _ => .error (.typeError (lit "Invalid time-series range or bin width"))

/-- An axis is let through. -/
theorem validate_axis (axis : Axis) :
    validateTimeSeriesInputs ⟨.finite axis.start, .finite axis.stop⟩ (.finite axis.binMs) = .ok axis :=
  dif_pos ⟨axis.start_lt_stop, axis.binMs_pos⟩

/-- The loop of `validateSeries`. -/
def validateSeriesFrom : ℕ → List Str → List Series → Except Thrown Unit
  | _, _, [] => .ok ()
  | index, seen, item :: rest =>
    if item.key = [] ∨ item.key ∈ seen then
      .error (.typeError (lit "Invalid chart series at index " ++ natText index))
    else validateSeriesFrom (index + 1) (item.key :: seen) rest

/-- `validateSeries`. -/
def validateSeries (series : List Series) : Except Thrown Unit := validateSeriesFrom 0 [] series

/-- A value, or the first other one that is not `null` or `undefined`. -/
def orElse (value other : Value) : Value := if value.isNullish then other else value

/-- `raw` in `eventTimestamp`. -/
def rawTimestamp (event : Value) : Value :=
  orElse (event.get (lit "ts")) (orElse (event.get (lit "start"))
    (orElse (event.get (lit "bucket_start")) (event.get (lit "time"))))

/-- `eventTimestamp`. -/
def eventTimestamp (js : Runtime) (event : Value) : Except Thrown Number :=
  if event.truthy = false then .ok .nan
  else
    match rawTimestamp event with
    | .undefined | .null => .ok .nan
    | .number n => .ok n
    | raw => do
      match ← number js raw with
      | .finite q => return .finite q
      | _ => return finiteOrNaN (js.dateParse (toText js raw))

/-- `eventAmount`. -/
def eventAmount (js : Runtime) (value : Value) (fallback : ℚ) : Except Thrown ℚ :=
  match value with
  | .undefined | .null | .string [] => .ok fallback
  | value => do
    match ← number js value with
    | .finite q => return max 0 q
    | _ => return 0

/-- `denseIntervalInput`. -/
def denseIntervalInput (events : Value) : Bool :=
  events.elements.any fun event =>
    event.truthy && (event.hasOwn (lit "start") || event.hasOwn (lit "end"))

/-! ## Bins

Dense rows become bins as they are; for point events the range is divided into bins of the given width, of
which the last one may be shorter.
-/

/-- A bin of a chart. -/
@[ext] structure Bin where
  start : ℚ
  stop : ℚ
  values : Str → ℚ
  total : ℚ

/-- The ends of a bin. -/
def Bin.interval (bin : Bin) : ℚ × ℚ := (bin.start, bin.stop)

/-- The loop of `boundedTimeIntervals`, for at most `fuel` turns. -/
def intervalsFrom (stop binMs : ℚ) : ℕ → ℚ → List (ℚ × ℚ)
  | 0, _ => []
  | fuel + 1, start =>
    if start < stop then
      if stop ≤ min (start + binMs) stop then [(start, min (start + binMs) stop)]
      else
        (start, min (start + binMs) stop) ::
          intervalsFrom stop binMs fuel (min (start + binMs) stop)
    else []

/-- `boundedTimeIntervals` of a range that it lets through. -/
def boundedTimeIntervals (axis : Axis) : List (ℚ × ℚ) :=
  intervalsFrom axis.stop axis.binMs ⌈(axis.stop - axis.start) / axis.binMs⌉.toNat axis.start

/-- The text of an error at an index. -/
def atIndex (before : String) (index : ℕ) (after : String) : Thrown :=
  .typeError (lit before ++ natText index ++ lit after)

/-- `values[key]` of an object made of keys and their amounts. -/
def valuesOf (keys : List Str) (amounts : List ℚ) (key : Str) : ℚ :=
  ((keys.zip amounts).lookup key).getD 0

/-- The bin of one row, in the loop of `normalizedDenseIntervals`. -/
def denseInterval (js : Runtime) (keys : List Str) (axis : Axis) (index : ℕ) (previousEnd : Option ℚ)
    (event : Value) : Except Thrown Bin :=
  if (event.truthy && event.hasOwn (lit "start") && event.hasOwn (lit "end")) = false then
    .error (atIndex "Malformed dense interval at index " index "")
  else do
    let start ← eventTimestamp js (.object [(lit "start", event.get (lit "start"))])
    let stop ← eventTimestamp js (.object [(lit "start", event.get (lit "end"))])
    match start, stop with
    | .finite start, .finite stop =>
      if stop ≤ start then .error (atIndex "Malformed dense interval at index " index "")
      else if start < axis.start ∨ axis.stop < stop then
        .error (atIndex "Dense interval at index " index " is outside the selected range")
      else if index = 0 ∧ start ≠ axis.start then
        .error (.typeError (lit "Dense intervals must start at the selected range start"))
      else if ∃ e ∈ previousEnd, start ≠ e then
        .error (atIndex "Dense interval at index " index " does not continue the previous interval")
      else
        let amounts ← keys.mapM fun key => eventAmount js (event.get key) 0
        let values := valuesOf keys amounts
        return ⟨start, stop, values, (keys.map values).sum⟩
    | _, _ => .error (atIndex "Malformed dense interval at index " index "")

/-- The loop of `normalizedDenseIntervals` and the check after it. -/
def denseIntervalsFrom (js : Runtime) (keys : List Str) (axis : Axis) :
    ℕ → Option ℚ → List Value → Except Thrown (List Bin)
  | _, previousEnd, [] =>
    if ∃ e ∈ previousEnd, e ≠ axis.stop then
      .error (.typeError (lit "Dense intervals must end at the selected range end"))
    else .ok []
  | index, previousEnd, event :: rest => do
    let bin ← denseInterval js keys axis index previousEnd event
    let bins ← denseIntervalsFrom js keys axis (index + 1) (some bin.stop) rest
    return bin :: bins

/-- `normalizedDenseIntervals`. -/
def normalizedDenseIntervals (js : Runtime) (events : List Value) (series : List Series) (axis : Axis) :
    Except Thrown (List Bin) :=
  denseIntervalsFrom js (series.map Series.key) axis 0 none events

/-! ## Point events

Events without a finite timestamp, and those outside of the range, are skipped; the others are sorted by
their timestamps.
-/

/-- An event of `normalizedSeriesEvents`, with the amounts for its keys. -/
structure SeriesEvent where
  ts : ℚ
  index : ℕ
  values : List (Str × ℚ)

/-- `values[key] = amount` in an object literal: a number is no prototype. -/
def assign (key : Str) (amount : ℚ) (values : List (Str × ℚ)) : List (Str × ℚ) :=
  if key = lit "__proto__" then values else values ++ [(key, amount)]

/-- `keyed` in `normalizedSeriesEvents`. -/
def keyed (event : Value) : Value :=
  orElse (event.get (lit "key")) (orElse (event.get (lit "series")) (event.get (lit "kind")))

/-- The amounts of an event. -/
def eventValues (js : Runtime) (series : List Series) (event : Value) :
    Except Thrown (List (Str × ℚ)) :=
  match keyed event with
  | .undefined | .null =>
    series.foldlM (fun values item =>
      if event.hasOwn item.key then do
        let amount ← eventAmount js (event.get item.key) 0
        return assign item.key amount values
      else return values) []
  | .string key =>
    if key ∈ series.map Series.key then do
      let amount ← eventAmount js (orElse (event.get (lit "value")) (event.get (lit "count"))) 1
      return assign key amount []
    else return []
  | _ => return []

/-- The event that `normalizedSeriesEvents` makes of one of its input. -/
def seriesEvent (js : Runtime) (series : List Series) (axis : Axis) (index : ℕ) (event : Value) :
    Except Thrown (Option SeriesEvent) := do
  match ← eventTimestamp js event with
  | .finite ts =>
    if ts < axis.start ∨ axis.stop ≤ ts then return none
    else
      let values ← eventValues js series event
      return if values = [] then none else some ⟨ts, index, values⟩
  | _ => return none

/-- The order of `normalizedSeriesEvents`. -/
def SeriesEvent.before (left right : SeriesEvent) : Bool :=
  decide (left.ts < right.ts ∨ left.ts = right.ts ∧ left.index ≤ right.index)

/-- `normalizedSeriesEvents`. -/
def normalizedSeriesEvents (js : Runtime) (events : List Value) (series : List Series) (axis : Axis) :
    Except Thrown (List SeriesEvent) := do
  let normalized ← events.zipIdx.mapM fun (event, index) => seriesEvent js series axis index event
  return normalized.reduceOption.mergeSort SeriesEvent.before

/-- `values[key] += amount` for the amounts of an event. -/
def addAmounts (values : Str → ℚ) (event : SeriesEvent) : Str → ℚ :=
  event.values.foldl (fun acc p => Function.update acc p.1 (acc p.1 + p.2)) values

/-- A bin with an event added. -/
def Bin.add (bin : Bin) (event : SeriesEvent) : Bin :=
  { bin with
    values := addAmounts bin.values event
    total := bin.total + (event.values.map Prod.snd).sum }

/-- The loop over the bins in `buildStackedTimeSeriesData`: every bin takes the events before its end. -/
def fillBins : (Str → ℚ) → List Bin → List SeriesEvent → List Bin × (Str → ℚ)
  | totals, [], _ => ([], totals)
  | totals, bin :: bins, events =>
    let taken := events.takeWhile fun e => decide (e.ts < bin.stop)
    let rest := events.dropWhile fun e => decide (e.ts < bin.stop)
    let (bins, totals) := fillBins (taken.foldl addAmounts totals) bins rest
    (taken.foldl Bin.add bin :: bins, totals)

/-! ## The data of a chart

What the panels draw. The totals are accumulated with the bins, in the same loop.
-/

/-- A point of a cumulative line. -/
structure Point where
  ts : ℚ
  v : ℚ
  binIdx : ℤ

/-- The points of a series after the first one. -/
def pointsFrom (key : Str) : ℚ → ℤ → List Bin → List Point
  | _, _, [] => []
  | value, binIdx, bin :: bins =>
    ⟨bin.stop, value + bin.values key, binIdx⟩ ::
      pointsFrom key (value + bin.values key) (binIdx + 1) bins

/-- What `buildStackedTimeSeriesData` returns. -/
structure StackedData where
  bins : List Bin
  cumulative : Str → List Point
  totals : Str → ℚ

/-- `cumulative[key]`. -/
def cumulativePoints (axis : Axis) (bins : List Bin) (key : Str) : List Point :=
  ⟨axis.start, 0, -1⟩ :: pointsFrom key 0 0 bins

/-- The bins before the events are added. -/
def emptyBins (axis : Axis) : List Bin :=
  (boundedTimeIntervals axis).map fun p => ⟨p.1, p.2, fun _ => 0, 0⟩

/-- `buildStackedTimeSeriesData`. -/
def buildStackedTimeSeriesData (js : Runtime) (events : Value) (series : List Series) (range : Range)
    (binMs : Number) : Except Thrown StackedData := do
  let axis ← validateTimeSeriesInputs range binMs
  validateSeries series
  if denseIntervalInput events then
    let bins ← normalizedDenseIntervals js events.elements series axis
    return ⟨bins, cumulativePoints axis bins, fun key => (bins.map fun bin => bin.values key).sum⟩
  else
    let events ← normalizedSeriesEvents js events.elements series axis
    let (bins, totals) := fillBins (fun _ => 0) (emptyBins axis) events
    return ⟨bins, cumulativePoints axis bins, totals⟩

/-- A line ends at the sum of the values of its series. -/
theorem getLast?_cumulativePoints (axis : Axis) (bins : List Bin) (key : Str) :
    (cumulativePoints axis bins key).getLast?.map Point.v =
      some (bins.map fun bin => bin.values key).sum := by
  have hfrom (p : Point) (binIdx : ℤ) : ((p :: pointsFrom key p.v binIdx bins).getLast?).map Point.v =
      some (p.v + (bins.map fun bin => bin.values key).sum) := by
    induction bins generalizing p binIdx with
    | nil => simp [pointsFrom]
    | cons bin bins ih =>
      rw [pointsFrom, List.getLast?_cons_cons, List.map_cons, List.sum_cons, ← add_assoc]
      exact ih ⟨bin.stop, p.v + bin.values key, binIdx⟩ (binIdx + 1)
  rw [← zero_add (List.sum _)]
  exact hfrom ⟨axis.start, 0, -1⟩ 0

/-- Bins that take no event stay as they are. -/
theorem fillBins_nil (totals : Str → ℚ) (bins : List Bin) : fillBins totals bins [] = (bins, totals) := by
  induction bins with
  | nil => rfl
  | cons bin bins ih =>
    unfold fillBins
    simp only [List.takeWhile_nil, List.dropWhile_nil, List.foldl_nil, ih]

section Build

variable {js : Runtime} {series : List Series} {range : Range} {binMs : Number} {axis : Axis}
  (haxis : validateTimeSeriesInputs range binMs = .ok axis) (hseries : validateSeries series = .ok ())
include haxis hseries

/-- Without events every bin and every total is zero. -/
theorem buildStackedTimeSeriesData_nil :
    buildStackedTimeSeriesData js (.array []) series range binMs =
      .ok ⟨emptyBins axis, cumulativePoints axis (emptyBins axis), fun _ => 0⟩ := by
  have hdense : denseIntervalInput (.array []) = false := rfl
  have hevents : normalizedSeriesEvents js (Value.array []).elements series axis = .ok [] :=
    congrArg Except.ok List.mergeSort_nil
  rw [buildStackedTimeSeriesData, haxis, hseries, hdense]
  simp only [bind, Except.bind, hevents, fillBins_nil]
  rfl

/-- Dense rows become the bins when they are accepted. -/
theorem buildStackedTimeSeriesData_dense {rows : List Value}
    (hdense : denseIntervalInput (.array rows) = true) {data : StackedData} :
    buildStackedTimeSeriesData js (.array rows) series range binMs = .ok data ↔
      ∃ bins, normalizedDenseIntervals js rows series axis = .ok bins ∧
        data = ⟨bins, cumulativePoints axis bins, fun key => (bins.map fun bin => bin.values key).sum⟩ := by
  have hbuild : buildStackedTimeSeriesData js (.array rows) series range binMs =
      (normalizedDenseIntervals js rows series axis >>= fun bins =>
        .ok ⟨bins, cumulativePoints axis bins, fun key => (bins.map fun bin => bin.values key).sum⟩) := by
    rw [buildStackedTimeSeriesData, haxis, hseries, hdense]
    rfl
  rw [hbuild, bind_eq_ok]
  refine exists_congr fun bins => and_congr_right fun _ => ?_
  rw [Except.ok.injEq, eq_comm]

end Build

/-! ## What is accepted

The rows are accepted one by one, each against the end of the one before it, so that they tile the range
when all of them are. -/

section Dense

variable (js : Runtime) (keys : List Str)

/-- The ends of a row, the first before the second. -/
def rowInterval (row : Value) : Option (ℚ × ℚ) :=
  if (row.truthy && row.hasOwn (lit "start") && row.hasOwn (lit "end")) = false then none
  else
    match eventTimestamp js (.object [(lit "start", row.get (lit "start"))]),
      eventTimestamp js (.object [(lit "start", row.get (lit "end"))]) with
    | .ok (.finite start), .ok (.finite stop) => if stop ≤ start then none else some (start, stop)
    | _, _ => none

/-- The bin of a row. -/
def rowBin (row : Value) : Option Bin :=
  match rowInterval js row, keys.mapM fun key => eventAmount js (row.get key) 0 with
  | some (start, stop), .ok amounts =>
    some ⟨start, stop, valuesOf keys amounts, (keys.map (valuesOf keys amounts)).sum⟩
  | _, _ => none

/-- Where the row of an index has to start. -/
def Expects (axis : Axis) (index : ℕ) (previousEnd : Option ℚ) (expected : ℚ) : Prop :=
  (index = 0 ∧ previousEnd = none ∧ expected = axis.start) ∨
    (index ≠ 0 ∧ previousEnd = some expected ∧ axis.start ≤ expected)

variable {js keys} {axis : Axis} {index : ℕ} {previousEnd : Option ℚ} {expected : ℚ}

theorem lt_of_rowInterval {row : Value} {p : ℚ × ℚ} (h : rowInterval js row = some p) : p.1 < p.2 := by
  unfold rowInterval at h
  split_ifs at h
  split at h
  · split_ifs at h with hlt
    cases h
    exact not_le.mp hlt
  · cases h

/-- A bin has the ends of its row. -/
theorem rowBin_eq_some {row : Value} {bin : Bin} : rowBin js keys row = some bin ↔
    rowInterval js row = some bin.interval ∧ ∃ amounts,
      (keys.mapM fun key => eventAmount js (row.get key) 0) = .ok amounts ∧
        bin.values = valuesOf keys amounts ∧ bin.total = (keys.map bin.values).sum := by
  unfold rowBin
  cases hinterval : rowInterval js row with
  | none => simp
  | some p =>
    cases keys.mapM fun key => eventAmount js (row.get key) 0 with
    | error e => simp
    | ok amounts =>
      constructor
      · intro h
        cases h
        exact ⟨rfl, amounts, rfl, rfl, rfl⟩
      · rintro ⟨hends, _, hamounts, hvalues, htotal⟩
        cases hamounts
        obtain ⟨start, stop, values, total⟩ := bin
        cases hends
        obtain rfl : values = valuesOf keys amounts := hvalues
        obtain rfl : total = (keys.map (valuesOf keys amounts)).sum := htotal
        rfl

theorem start_lt_stop_of_rowBin {row : Value} {bin : Bin} (h : rowBin js keys row = some bin) :
    bin.start < bin.stop := lt_of_rowInterval (rowBin_eq_some.mp h).1

/-- One row is accepted when it starts where it has to and ends within the range. -/
theorem denseInterval_eq_ok (hexpects : Expects axis index previousEnd expected) {row : Value} {bin : Bin} :
    denseInterval js keys axis index previousEnd row = .ok bin ↔
      rowBin js keys row = some bin ∧ bin.start = expected ∧ bin.stop ≤ axis.stop := by
  rw [rowBin_eq_some]
  unfold denseInterval rowInterval
  by_cases howned : (row.truthy && row.hasOwn (lit "start") && row.hasOwn (lit "end")) = false
  · rw [if_pos howned, if_pos howned]
    simp
  rw [if_neg howned, if_neg howned]
  cases eventTimestamp js (.object [(lit "start", row.get (lit "start"))]) with
  | error e => simp [bind, Except.bind]
  | ok left =>
  cases eventTimestamp js (.object [(lit "start", row.get (lit "end"))]) with
  | error e => simp [bind, Except.bind]
  | ok right =>
  cases left with
  | nan | posInf | negInf => simp [bind, Except.bind]
  | finite start =>
    cases right with
    | nan | posInf | negInf => simp [bind, Except.bind]
    | finite stop =>
      simp only [bind, Except.bind]
      by_cases hle : stop ≤ start
      · rw [if_pos hle, if_pos hle]
        simp
      rw [if_neg hle, if_neg hle]
      -- the bin that is left to make when no check fails
      cases hmap : keys.mapM fun key => eventAmount js (row.get key) 0 with
      | error e =>
        refine iff_of_false (fun h => ?_) fun ⟨⟨_, _, h, _⟩, _⟩ => by cases h
        split_ifs at h
      | ok amounts =>
      simp only [Option.some.injEq, Except.ok.injEq, exists_eq_left']
      constructor
      · intro h
        split_ifs at h with houtside hfirst hnext
        cases h
        refine ⟨⟨rfl, rfl, rfl⟩, ?_, not_lt.mp (not_or.mp houtside).2⟩
        by_contra hne
        rcases hexpects with ⟨rfl, -, rfl⟩ | ⟨-, rfl, -⟩
        · exact hfirst ⟨rfl, hne⟩
        · exact hnext ⟨expected, rfl, hne⟩
      · rintro ⟨⟨hends, hvalues, htotal⟩, hstart, hstop⟩
        obtain ⟨hleft, hright⟩ := Prod.mk.inj hends
        rw [← hleft] at hstart
        rw [← hright] at hstop
        have hinside : ¬ (start < axis.start ∨ axis.stop < stop) := by
          refine not_or.mpr ⟨not_lt.mpr ?_, not_lt.mpr hstop⟩
          rcases hexpects with ⟨-, -, heq⟩ | ⟨-, -, hge⟩
          · exact (hstart.trans heq).ge
          · exact hge.trans_eq hstart.symm
        have hfirst : ¬ (index = 0 ∧ start ≠ axis.start) := by
          rintro ⟨rfl, hne⟩
          rcases hexpects with ⟨-, -, heq⟩ | ⟨hzero, -, -⟩
          · exact hne (hstart.trans heq)
          · exact hzero rfl
        have hnext : ¬ ∃ e ∈ previousEnd, start ≠ e := by
          rintro ⟨e, he, hne⟩
          rcases hexpects with ⟨-, rfl, -⟩ | ⟨-, rfl, -⟩
          · cases he
          · cases he
            exact hne hstart
        rw [if_neg hinside, if_neg hfirst, if_neg hnext]
        exact congrArg Except.ok (Bin.ext hleft hright hvalues.symm (hvalues ▸ htotal.symm))

/-- The rows are accepted when their bins tile what is left of the range. -/
theorem denseIntervalsFrom_eq_ok {rows : List Value} (hexpects : Expects axis index previousEnd expected)
    (hne : rows = [] → previousEnd ≠ none) {bins : List Bin} :
    denseIntervalsFrom js keys axis index previousEnd rows = .ok bins ↔
      rows.map (rowBin js keys) = bins.map some ∧
        Tiling.Tiles expected axis.stop (bins.map Bin.interval) := by
  induction rows generalizing index previousEnd expected bins with
  | nil =>
    rcases hexpects with ⟨-, rfl, -⟩ | ⟨-, rfl, -⟩
    · exact absurd rfl (hne rfl)
    have hdone : denseIntervalsFrom js keys axis index (some expected) [] = .ok bins ↔
        expected = axis.stop ∧ bins = [] := by
      rw [denseIntervalsFrom]
      by_cases hend : expected = axis.stop <;> simp [hend, eq_comm]
    rw [hdone]
    constructor
    · rintro ⟨hend, rfl⟩
      exact ⟨rfl, hend⟩
    · rintro ⟨hnil, htiles⟩
      obtain rfl := List.map_eq_nil_iff.mp hnil.symm
      exact ⟨htiles, rfl⟩
  | cons row rest ih =>
    -- the next row has to start where this one ends
    have hrest {bin : Bin} (hbin : rowBin js keys row = some bin) (hstart : bin.start = expected) :
        Expects axis (index + 1) (some bin.stop) bin.stop := by
      refine Or.inr ⟨Nat.succ_ne_zero index, rfl, ?_⟩
      have hlt := start_lt_stop_of_rowBin hbin
      rcases hexpects with ⟨-, -, heq⟩ | ⟨-, -, hge⟩
      · exact (heq ▸ hstart ▸ hlt).le
      · exact hge.trans (hstart ▸ hlt.le)
    have hsome {bin : Bin} : rest = [] → some bin.stop ≠ none := fun _ => Option.some_ne_none _
    rw [denseIntervalsFrom, bind_eq_ok]
    constructor
    · rintro ⟨bin, hok, h⟩
      obtain ⟨hbin, hstart, hstop⟩ := (denseInterval_eq_ok hexpects).mp hok
      obtain ⟨bins, hfrom, h⟩ := bind_eq_ok.mp h
      obtain ⟨hbins, htiles⟩ := (ih (hrest hbin hstart) hsome).mp hfrom
      cases h
      refine ⟨?_, hstart, start_lt_stop_of_rowBin hbin, htiles⟩
      rw [List.map_cons, List.map_cons, hbin, hbins]
    · rintro ⟨hbins, htiles⟩
      cases bins with
      | nil => cases hbins
      | cons bin bins =>
        obtain ⟨hbin, hbins⟩ := List.cons.inj hbins
        obtain ⟨hstart, -, htiles⟩ := htiles
        refine ⟨bin, (denseInterval_eq_ok hexpects).mpr ⟨hbin, hstart, htiles.le⟩, ?_⟩
        exact bind_eq_ok.mpr ⟨bins, (ih (hrest hbin hstart) hsome).mpr ⟨hbins, htiles⟩, rfl⟩

end Dense

/-- Dense rows are accepted exactly when each of them has a bin and the bins tile the range. -/
theorem normalizedDenseIntervals_eq_ok {js : Runtime} {rows : List Value} (hne : rows ≠ [])
    {series : List Series} {axis : Axis} {bins : List Bin} :
    normalizedDenseIntervals js rows series axis = .ok bins ↔
      rows.map (rowBin js (series.map Series.key)) = bins.map some ∧
        Tiling.Tiles axis.start axis.stop (bins.map Bin.interval) :=
  denseIntervalsFrom_eq_ok (Or.inl ⟨rfl, rfl, rfl⟩) fun h => absurd h hne

end Ghpulse.Web
