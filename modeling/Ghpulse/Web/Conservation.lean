import Ghpulse.Web.Stacked

/-!
# Conservation of point events

Point events end up in the bin that contains their timestamp, all of them and whatever their order. The
exact condition: the conversions of an event do not throw, and no event of a series called `__proto__`
counts for anything.

Reference: `src/dashboard-charts.jsx`.
-/

open Python Js

namespace Ghpulse.Web

/-! ## The statement

What conservation means for a chart that is drawn, bin by bin and line by line. The events may be given in
any order, so it is about a multiset of them.
-/

/-- The data of a chart conserves some events. The events are values: what the source writes to are the
objects that it has made of them. -/
structure Conserves (js : Runtime) (events : List Value) (series : List Series) (start stop binMs : ℚ)
    (data : StackedData) : Prop where
  /-- The bins tile the range. -/
  tiles : Tiling.Tiles start stop (data.bins.map Bin.interval)
  /-- Only the last one is shortened. -/
  width : (∀ bin ∈ data.bins, bin.stop ≤ bin.start + binMs) ∧
    ∀ bin ∈ data.bins.dropLast, bin.stop = bin.start + binMs
  /-- An event of the range lies in exactly one bin. -/
  placed : ∀ event ∈ events, LiesWithin js start stop event →
    ∃! i : ℕ, ∃ bin : Bin, data.bins[i]? = some bin ∧ LiesWithin js bin.start bin.stop event
  /-- A bin contains what the events that lie in it add to a series. -/
  values : ∀ bin ∈ data.bins, ∀ item ∈ series, bin.values item.key =
    ((events.filter fun event => decide (LiesWithin js bin.start bin.stop event)).map fun event =>
      amountOf js event item.key).sum
  /-- A bin adds up its values. -/
  total : ∀ bin ∈ data.bins, bin.total = (series.map fun item => bin.values item.key).sum
  /-- A total adds up the bins, and a line ends at it. -/
  totals : ∀ item ∈ series,
    data.totals item.key = (data.bins.map fun bin => bin.values item.key).sum ∧
      (data.cumulative item.key).getLast?.map Point.v = some (data.totals item.key)
  /-- A line starts at zero, has a point at the end of each bin and does not fall. -/
  lines : ∀ item ∈ series, (data.cumulative item.key).head? = some ⟨start, 0, -1⟩ ∧
    (data.cumulative item.key).tail.map Point.ts = data.bins.map Bin.stop ∧
      ((data.cumulative item.key).map Point.v).Pairwise (· ≤ ·)

/-- A chart of some events is drawn, and conserves them; the order of the events does not matter. -/
def PointsConserved (js : Runtime) (events : List Value) (series : List Series) (start stop binMs : ℚ) :
    Prop :=
  ∃ data, (∀ events', events'.Perm events → buildStackedTimeSeriesData js (.array events') series
      ⟨.finite start, .finite stop⟩ (.finite binMs) = .ok data) ∧
    Conserves js events series start stop binMs data

/-- Nothing is lost of some events. -/
structure NothingLost (js : Runtime) (events : List Value) (series : List Series) (start stop : ℚ) :
    Prop where
  /-- No conversion throws. -/
  converts : ∀ event ∈ events, Converts js series start stop event
  /-- No event counts for a series called `__proto__`. -/
  kept : lit "__proto__" ∈ series.map Series.key → ∀ event ∈ events, LiesWithin js start stop event →
    amountOf js event (lit "__proto__") = 0

/-- Events that a chart can be drawn of without a loss: no series is without a key, either. -/
structure Binnable (js : Runtime) (events : List Value) (series : List Series) (start stop : ℚ) : Prop
    extends NothingLost js events series start stop where
  named : ∀ item ∈ series, item.key ≠ []

/-! ## The proof

In one direction the sums of the bins are rearranged into one sum over the events. In the other one a loss
is traced to its event, since no amount is negative.
-/

section

variable {js : Runtime} {events : List Value} {series : List Series}

/-- What is recorded adds up to what the events mean when nothing is lost. -/
theorem recordedSum_eq {start stop : ℚ} {key : Str} (hkey : key ∈ series.map Series.key)
    (hkept : key = lit "__proto__" → ∀ event ∈ events, LiesWithin js start stop event →
      amountOf js event key = 0) :
    recordedSum js series events start stop key =
      ((events.filter fun event => decide (LiesWithin js start stop event)).map fun event =>
        amountOf js event key).sum := by
  rw [recordedSum, List.sum_map_ite, List.map_const', List.sum_replicate, nsmul_zero, add_zero]
  refine congrArg List.sum (List.map_congr_left fun event hevent => ?_)
  rw [recordedAmount]
  -- only for this key is less recorded than the event means
  by_cases hproto : key = lit "__proto__"
  · rw [if_neg fun h => h.2 hproto]
    obtain ⟨hin, hlies⟩ := List.mem_filter.mp hevent
    exact (hkept hproto event hin (of_decide_eq_true hlies)).symm
  · exact if_pos ⟨hkey, hproto⟩

/-- A sum of amounts is zero only if all of them are. -/
theorem amountOf_eq_zero {start stop : ℚ} {key : Str}
    (hsum : ((events.filter fun event => decide (LiesWithin js start stop event)).map fun event =>
      amountOf js event key).sum = 0) {event : Value} (hevent : event ∈ events)
    (hlies : LiesWithin js start stop event) : amountOf js event key = 0 := by
  apply List.all_zero_of_le_zero_le_of_sum_eq_zero _ hsum
  · exact List.mem_map_of_mem (List.mem_filter.mpr ⟨hevent, decide_eq_true hlies⟩)
  · intro q hq
    obtain ⟨other, -, rfl⟩ := List.mem_map.mp hq
    exact amountOf_nonneg js other _

/-- Nothing is recorded of a key that no series has, or of `__proto__`. -/
theorem recordedSum_eq_zero {key : Str}
    (hlost : ¬ (key ∈ series.map Series.key ∧ key ≠ lit "__proto__")) (start stop : ℚ) :
    recordedSum js series events start stop key = 0 := by
  apply List.sum_eq_zero
  intro q hq
  obtain ⟨event, -, rfl⟩ := List.mem_map.mp hq
  rw [recordedAmount, if_neg hlost, ite_self]

/-- An event of the range lies in exactly one interval of a tiling. -/
theorem existsUnique_interval {start stop : ℚ} {intervals : List (ℚ × ℚ)}
    (htiles : Tiling.Tiles start stop intervals) {event : Value} (h : LiesWithin js start stop event) :
    ∃! i : ℕ, ∃ p : ℚ × ℚ, intervals[i]? = some p ∧ LiesWithin js p.1 p.2 event := by
  obtain ⟨ts, hts, hge, hlt⟩ := h
  have hne : intervals ≠ [] := fun hnil => (hge.trans_lt hlt).ne (htiles.eq_nil_iff.mp hnil)
  have hlies {i : ℕ} : (∃ p : ℚ × ℚ, intervals[i]? = some p ∧ LiesWithin js p.1 p.2 event) ↔
      Tiling.LiesIn intervals ts i := by
    constructor
    · rintro ⟨p, hp, ts', hts', hin⟩
      rw [hts] at hts'
      cases hts'
      exact ⟨p, hp, hin.1, Or.inl hin.2⟩
    -- the last interval is closed, but the event lies before its end
    · rintro ⟨p, hp, hle, hbefore⟩
      refine ⟨p, hp, ts, hts, hle, hbefore.resolve_right ?_⟩
      rintro ⟨hlast, hend⟩
      exact hlt.ne (hend.trans (htiles.snd_eq_of_last hp hlast))
  obtain ⟨i, hi⟩ := htiles.exists_liesIn hne hge hlt.le
  exact ⟨i, hlies.mpr hi, fun j hj => htiles.liesIn_unique (hlies.mp hj) hi⟩

/-- Point events have neither end of an interval. -/
theorem denseIntervalInput_eq_false
    (h : ∀ event ∈ events, event.hasOwn (lit "start") = false ∧ event.hasOwn (lit "end") = false) :
    denseIntervalInput (.array events) = false := by
  refine List.any_eq_false.mpr fun event hevent => ?_
  obtain ⟨hstart, hstop⟩ := h event hevent
  rw [hstart, hstop, Bool.or_self, Bool.and_false]
  exact Bool.false_ne_true

/-- The sums do not depend on the order of the events. -/
theorem eventBin_perm {events' : List Value} (h : events'.Perm events) (p : ℚ × ℚ) :
    eventBin js series events' p = eventBin js series events p := by
  have hsum (key : Str) : recordedSum js series events' p.1 p.2 key =
      recordedSum js series events p.1 p.2 key := (h.map _).sum_eq
  exact Bin.ext rfl rfl (funext hsum) (congrArg List.sum (List.map_congr_left fun item _ => hsum item.key))

/-- What remains to be shown of the bins of some events are their values. -/
theorem conserves_stacked {axis : Axis}
    (hvalues : ∀ bin ∈ (boundedTimeIntervals axis).map (eventBin js series events), ∀ item ∈ series,
      bin.values item.key = ((events.filter fun event =>
        decide (LiesWithin js bin.start bin.stop event)).map fun event =>
          amountOf js event item.key).sum) :
    Conserves js events series axis.start axis.stop axis.binMs
      (stacked axis ((boundedTimeIntervals axis).map (eventBin js series events))) := by
  have hstacks := stacks_eventBin js series axis events
  refine ⟨hstacks.tiles, ⟨fun bin hbin => ?_, fun bin hbin => ?_⟩, fun event _ hlies => ?_, hvalues,
    hstacks.total, fun item _ => ⟨rfl, getLast?_cumulativePoints _ _ _⟩, fun item _ => ⟨rfl, ?_, ?_⟩⟩
  · obtain ⟨p, hp, rfl⟩ := List.mem_map.mp hbin
    exact le_of_mem_intervalsFrom hp
  · change bin ∈ ((boundedTimeIntervals axis).map (eventBin js series events)).dropLast at hbin
    rw [← List.map_dropLast] at hbin
    obtain ⟨p, hp, rfl⟩ := List.mem_map.mp hbin
    exact eq_of_mem_dropLast_intervalsFrom hp
  · obtain ⟨i, ⟨p, hp, hin⟩, hunique⟩ := existsUnique_interval hstacks.tiles hlies
    rw [List.getElem?_map] at hp
    obtain ⟨bin, hget, rfl⟩ := Option.map_eq_some_iff.mp hp
    refine ⟨i, ⟨bin, hget, hin⟩, fun j ⟨bin', hget', hin'⟩ => ?_⟩
    refine hunique j ⟨bin'.interval, ?_, hin'⟩
    rw [List.getElem?_map]
    exact congrArg (Option.map Bin.interval) hget'
  · exact map_ts_pointsFrom item.key 0 0 _
  · exact pairwise_cumulativePoints axis fun bin hbin => hstacks.nonneg bin hbin item.key

variable {start stop binMs : ℚ}

/-- Without a loss the chart conserves the events. -/
theorem Binnable.pointsConserved (hlt : start < stop) (hbin : 0 < binMs)
    (hkeys : (series.map Series.key).Nodup) (hpoints : ∀ event ∈ events,
      event.hasOwn (lit "start") = false ∧ event.hasOwn (lit "end") = false)
    (h : Binnable js events series start stop) :
    PointsConserved js events series start stop binMs := by
  have hseries : validateSeries series = .ok () := validateSeries_eq_ok.mpr ⟨h.named, hkeys⟩
  obtain ⟨axis, rfl, rfl, rfl⟩ : ∃ axis : Axis, axis.start = start ∧ axis.stop = stop ∧
    axis.binMs = binMs := ⟨⟨start, stop, binMs, hlt, hbin⟩, rfl, rfl, rfl⟩
  refine ⟨stacked axis ((boundedTimeIntervals axis).map (eventBin js series events)),
    fun events' hperm => ?_, conserves_stacked fun bin hbin item hitem => ?_⟩
  · have hpoints' := denseIntervalInput_eq_false fun event hevent => hpoints event (hperm.subset hevent)
    refine (buildStackedTimeSeriesData_points (validate_axis axis) hseries hpoints').mpr
      ⟨fun event hevent => h.converts event (hperm.subset hevent), ?_⟩
    rw [List.map_congr_left fun p _ => eventBin_perm hperm p]
  · obtain ⟨p, hp, rfl⟩ := List.mem_map.mp hbin
    obtain ⟨hstart, hstop⟩ := (tiles_boundedTimeIntervals axis).mem_le hp
    have hkey : item.key ∈ series.map Series.key := List.mem_map_of_mem hitem
    refine recordedSum_eq hkey fun hproto event hevent hlies => ?_
    obtain ⟨ts, hts, hge, hbefore⟩ := hlies
    rw [hproto] at hkey ⊢
    exact h.kept hkey event hevent ⟨ts, hts, hstart.trans hge, hbefore.trans_le hstop⟩

/-- A chart that conserves its events loses nothing. -/
theorem PointsConserved.binnable
    (hpoints : ∀ event ∈ events,
      event.hasOwn (lit "start") = false ∧ event.hasOwn (lit "end") = false)
    (h : PointsConserved js events series start stop binMs) : Binnable js events series start stop := by
  obtain ⟨data, hbuild, hconserves⟩ := h
  have hbuild := hbuild events (List.Perm.refl events)
  obtain ⟨axis, haxis, hseries, -, -⟩ := stacks_of_build hbuild
  obtain ⟨rfl, rfl⟩ : axis.start = start ∧ axis.stop = stop := by
    unfold validateTimeSeriesInputs at haxis
    dsimp only at haxis
    split_ifs at haxis
    cases haxis
    exact ⟨rfl, rfl⟩
  obtain ⟨hconverts, rfl⟩ := (buildStackedTimeSeriesData_points haxis hseries
    (denseIntervalInput_eq_false hpoints)).mp hbuild
  obtain ⟨hnamed, -⟩ := validateSeries_eq_ok.mp hseries
  refine ⟨⟨hconverts, fun hkey event hevent hlies => ?_⟩, hnamed⟩
  -- the bin of the event records nothing, and it adds up amounts that are not negative
  obtain ⟨i, ⟨bin, hget, hin⟩, -⟩ := hconserves.placed event hevent hlies
  have hbin := List.mem_of_getElem? hget
  obtain ⟨item, hitem, hproto⟩ := List.mem_map.mp hkey
  have hsum := hconserves.values bin hbin item hitem
  obtain ⟨p, -, rfl⟩ := List.mem_map.mp hbin
  rw [hproto] at hsum
  have hzero : recordedSum js series events p.1 p.2 (lit "__proto__") = 0 :=
    recordedSum_eq_zero (fun h => h.2 rfl) p.1 p.2
  exact amountOf_eq_zero (hsum.symm.trans hzero) hevent hin

/-- Point events are conserved exactly when nothing is lost. -/
theorem pointsConserved_iff (js : Runtime) (events : List Value) (series : List Series)
    (start stop binMs : ℚ) (hlt : start < stop) (hbin : 0 < binMs)
    (hkeys : (series.map Series.key).Nodup) (hpoints : ∀ event ∈ events,
      event.hasOwn (lit "start") = false ∧ event.hasOwn (lit "end") = false) :
    PointsConserved js events series start stop binMs ↔ Binnable js events series start stop :=
  ⟨PointsConserved.binnable hpoints, Binnable.pointsConserved hlt hbin hkeys hpoints⟩

end

/-! ## Two charts -/

/-- A runtime for events that need none of its conversions. -/
def plainRuntime : Runtime := ⟨fun _ => .nan, fun _ => lit "[object Object]", fun _ => .nan, 0⟩

/-- An event of a series. -/
def eventOf (ts : ℚ) (key : String) : Value :=
  .object [(lit "ts", .number (.finite ts)), (lit "key", .string (lit key))]

/-- Events of two series in three of the four bins, one behind the range, and one that is none. -/
def sampleEvents : List Value :=
  [eventOf 10 "opened", eventOf 10 "completed", eventOf 130 "opened", .null, eventOf 399 "completed",
    eventOf 400 "opened"]

/-- None of their conversions throws. -/
theorem converts_sampleEvents {event : Value} (hevent : event ∈ sampleEvents) :
    Converts plainRuntime issueSeries 0 400 event := by
  have hall : ∀ event ∈ sampleEvents, (rawTimestamp event).convertible = true ∧
      ∀ value ∈ amountsRead issueSeries event, value.convertible = true := by
    decide
  exact ⟨(hall event hevent).1, fun _ => (hall event hevent).2⟩

/-- The sample events are conserved. -/
theorem opened_conserved : PointsConserved plainRuntime sampleEvents issueSeries 0 400 120 := by
  refine (pointsConserved_iff plainRuntime _ issueSeries 0 400 120 (by norm_num) (by norm_num)
    (by decide) (by decide)).mpr ⟨⟨?_, fun hproto => absurd hproto (by decide)⟩, by decide⟩
  exact fun event hevent => converts_sampleEvents hevent

/-- One of a series called `__proto__` is lost. -/
theorem proto_not_conserved : ([series "__proto__" "Prototype"].map Series.key).Nodup ∧
    (∀ event ∈ [eventOf 10 "__proto__"],
      event.hasOwn (lit "start") = false ∧ event.hasOwn (lit "end") = false) ∧
    ¬ PointsConserved plainRuntime [eventOf 10 "__proto__"] [series "__proto__" "Prototype"] 0 400 120 := by
  refine ⟨by decide, by decide, fun h => ?_⟩
  have hkept := (h.binnable (by decide)).kept (by decide) _ List.mem_cons_self
    ⟨10, rfl, by norm_num, by norm_num⟩
  have hone : amountOf plainRuntime (eventOf 10 "__proto__") (lit "__proto__") = 1 := rfl
  rw [hone] at hkept
  exact one_ne_zero hkept

end Ghpulse.Web
