import Ghpulse.Web.Dense
import Ghpulse.Web.Geometry

/-!
# Stacked bars

The segments of a bin stand on each other in the order of the series, and the bars of a chart beside each
other: the map of the times is monotone, and the bins tile the range.

Reference: `src/dashboard-charts.jsx`.
-/

open Python Js

namespace Ghpulse.Web

/-! ## Bars

The arithmetic of the drawing code over exact numbers. A bar is not wider than its bin, and a segment as
high as the share of its value in the maximum.
-/

/-- What `timeBarRect` returns. -/
structure BarRect where
  x : ℚ
  width : ℚ

/-- `timeBarRect`. -/
def timeBarRect (bin : Bin) (range : Range) (padL plotW : ℚ) : BarRect :=
  let x := timeX bin.start range padL plotW
  let endX := timeX bin.stop range padL plotW
  ⟨x, min (max 0 plotW) (max 0 ((endX - x) * (9 / 10)))⟩

/-- A segment of a bar. -/
structure Segment where
  key : Str
  color : Str
  value : ℚ
  x : ℚ
  width : ℚ
  y : ℚ
  height : ℚ

/-- The loop over the series in `buildStackedBarSegments`, above a baseline. -/
def segmentsFrom (bin : Bin) (rect : BarRect) (safeMax height padT : ℚ) : ℚ → List Series → List Segment
  | _, [] => []
  | baseline, item :: rest =>
    let value := max 0 (bin.values item.key)
    let bottom := padT + height - baseline / safeMax * height
    let top := padT + height - (baseline + value) / safeMax * height
    ⟨item.key, item.color, value, rect.x, rect.width, top, max 0 (bottom - top)⟩ ::
      segmentsFrom bin rect safeMax height padT (baseline + value) rest

/-- `buildStackedBarSegments`. -/
def buildStackedBarSegments (bin : Bin) (series : List Series) (range : Range)
    (padL plotW maxValue plotH padT : ℚ) (barRect : Option BarRect) : List Segment :=
  segmentsFrom bin (barRect.getD (timeBarRect bin range padL plotW)) (max 1 maxValue) (max 0 plotH) padT 0
    series

/-- `maxBin`. -/
def maxBin (bins : List Bin) : ℚ := (bins.map Bin.total).foldl max 1

/-- The segments that the panel draws of a bin. -/
def panelSegments (bins : List Bin) (series : List Series) (range : Range) (padL plotW padT plotH : ℚ)
    (bin : Bin) : List Segment :=
  buildStackedBarSegments bin series range padL plotW (maxBin bins) plotH padT
    (some (timeBarRect bin range padL plotW))

/-! ## The statement

What a reader of a chart relies on: bars that do not overlap, segments that neither overlap nor leave
gaps, heights in proportion, and nothing outside of the plot.
-/

/-- Segments stand on each other, from a bottom to a top. -/
def StandFrom (bottom : ℚ) : List Segment → ℚ → Prop
  | [], top => bottom = top
  | segment :: rest, top => segment.y + segment.height = bottom ∧ StandFrom segment.y rest top

/-- The bars of some bins fit into the plot. -/
structure BarsFit (bins : List Bin) (series : List Series) (range : Range)
    (padL plotW padT plotH : ℚ) : Prop where
  /-- They lie in the plot. -/
  inside : ∀ bin ∈ bins, ∀ s ∈ panelSegments bins series range padL plotW padT plotH bin,
    (padL ≤ s.x ∧ 0 ≤ s.width ∧ s.x + s.width ≤ padL + plotW) ∧
      padT ≤ s.y ∧ 0 ≤ s.height ∧ s.y + s.height ≤ padT + plotH
  /-- A bar ends before the next one starts. -/
  apart : bins.Pairwise fun bin bin' =>
    ∀ s ∈ panelSegments bins series range padL plotW padT plotH bin,
      ∀ s' ∈ panelSegments bins series range padL plotW padT plotH bin', s.x + s.width ≤ s'.x
  /-- There is one segment for each series, as high as its share of the maximum. -/
  heights : ∀ bin ∈ bins, List.Forall₂ (fun item s =>
      s.key = item.key ∧ s.value = bin.values item.key ∧
        s.height = bin.values item.key / maxBin bins * plotH)
    series (panelSegments bins series range padL plotW padT plotH bin)
  /-- The segments stand on each other, and the topmost one ends at the total. -/
  stacked : ∀ bin ∈ bins, StandFrom (padT + plotH)
    (panelSegments bins series range padL plotW padT plotH bin)
    (padT + plotH - bin.total / maxBin bins * plotH)

/-! ## Left and right

Only monotonicity of the time axis is used, and that it ends in the plot; where exactly a time is drawn
does not matter.
-/

section Horizontal

variable {range : Range} {padL plotW : ℚ} {bin : Bin}

/-- Times are drawn within the plot. -/
theorem timeX_mem (ts : ℚ) (range : Range) (padL : ℚ) (hW : 0 ≤ plotW) :
    padL ≤ timeX ts range padL plotW ∧ timeX ts range padL plotW ≤ padL + plotW := by
  have hedge : padL ≤ padL + plotW := le_add_of_nonneg_right hW
  unfold timeX
  rw [max_eq_right hW]
  split
  · split_ifs
    · exact ⟨le_rfl, hedge⟩
    · exact ⟨le_min hedge (le_max_left _ _), min_le_left _ _⟩
  · exact ⟨le_rfl, hedge⟩

/-- A later time is not drawn further left. -/
theorem timeX_mono (range : Range) (padL : ℚ) (hW : 0 ≤ plotW) :
    Monotone fun ts => timeX ts range padL plotW := by
  intro t t' hle
  dsimp only
  unfold timeX
  rw [max_eq_right hW]
  split
  · split_ifs with hspan
    · exact le_rfl
    · apply min_le_min_left
      apply max_le_max_left
      have hpos := not_le.mp hspan
      gcongr
  · exact le_rfl

/-- A bar starts at its bin and ends within it. -/
theorem timeBarRect_mem (range : Range) (padL : ℚ) (hW : 0 ≤ plotW) (hle : bin.start ≤ bin.stop) :
    (timeBarRect bin range padL plotW).x = timeX bin.start range padL plotW ∧
      0 ≤ (timeBarRect bin range padL plotW).width ∧
      (timeBarRect bin range padL plotW).x + (timeBarRect bin range padL plotW).width ≤
        timeX bin.stop range padL plotW := by
  have hends := timeX_mono range padL hW hle
  dsimp only at hends
  have hpart : max 0 ((timeX bin.stop range padL plotW - timeX bin.start range padL plotW) * (9 / 10)) ≤
      timeX bin.stop range padL plotW - timeX bin.start range padL plotW := by
    apply max_le
    · exact sub_nonneg.mpr hends
    · linarith
  refine ⟨rfl, le_min (le_max_left _ _) (le_max_left _ _), ?_⟩
  have hwidth : (timeBarRect bin range padL plotW).width ≤
      timeX bin.stop range padL plotW - timeX bin.start range padL plotW :=
    (min_le_right _ _).trans hpart
  exact le_sub_iff_add_le'.mp hwidth

end Horizontal

/-! ## Bottom and top

Induction on the series. The baseline of the next segment is the top of the one before.
-/

section Vertical

variable {bin : Bin} {rect : BarRect} {safeMax height padT baseline : ℚ} {series : List Series}

theorem x_of_mem_segmentsFrom {s : Segment}
    (h : s ∈ segmentsFrom bin rect safeMax height padT baseline series) :
    s.x = rect.x ∧ s.width = rect.width := by
  induction series generalizing baseline with
  | nil => cases h
  | cons item rest ih =>
    rcases List.mem_cons.mp h with rfl | h
    · exact ⟨rfl, rfl⟩
    · exact ih h

/-- A larger value has a larger share. -/
theorem share_le (hmax : 0 < safeMax) (hheight : 0 ≤ height) {a b : ℚ} (hle : a ≤ b) :
    a / safeMax * height ≤ b / safeMax * height :=
  mul_le_mul_of_nonneg_right (div_le_div_of_nonneg_right hle hmax.le) hheight

variable (hmax : 0 < safeMax) (hheight : 0 ≤ height) (hnonneg : ∀ key, 0 ≤ bin.values key)
include hmax hheight hnonneg

/-- The height of a segment is the share of its value. -/
theorem height_eq (item : Series) : max 0 (padT + height - baseline / safeMax * height -
      (padT + height - (baseline + max 0 (bin.values item.key)) / safeMax * height)) =
    bin.values item.key / safeMax * height := by
  have hshare : padT + height - baseline / safeMax * height -
      (padT + height - (baseline + bin.values item.key) / safeMax * height) =
        bin.values item.key / safeMax * height := by ring
  rw [max_eq_right (hnonneg item.key), hshare]
  exact max_eq_right (mul_nonneg (div_nonneg (hnonneg item.key) hmax.le) hheight)

/-- The segments above a baseline stand on each other. -/
theorem standFrom_segmentsFrom :
    StandFrom (padT + height - baseline / safeMax * height)
      (segmentsFrom bin rect safeMax height padT baseline series)
      (padT + height - (baseline + (series.map fun item => bin.values item.key).sum) / safeMax * height) := by
  induction series generalizing baseline with
  | nil =>
    rw [List.map_nil, List.sum_nil, add_zero]
    rfl
  | cons item rest ih =>
    rw [segmentsFrom, List.map_cons, List.sum_cons, ← add_assoc]
    refine ⟨?_, ?_⟩
    · dsimp only
      rw [height_eq hmax hheight hnonneg, max_eq_right (hnonneg item.key)]
      ring
    · dsimp only
      rw [max_eq_right (hnonneg item.key)]
      exact ih

/-- One segment for each series. -/
theorem forall₂_segmentsFrom : List.Forall₂ (fun item s =>
      s.key = item.key ∧ s.value = bin.values item.key ∧
        s.height = bin.values item.key / safeMax * height)
    series (segmentsFrom bin rect safeMax height padT baseline series) := by
  induction series generalizing baseline with
  | nil => exact List.Forall₂.nil
  | cons item rest ih =>
    exact List.Forall₂.cons ⟨rfl, max_eq_right (hnonneg item.key), height_eq hmax hheight hnonneg item⟩ ih

/-- A segment lies between the baseline and the sum of the values. -/
theorem y_of_mem_segmentsFrom {s : Segment}
    (h : s ∈ segmentsFrom bin rect safeMax height padT baseline series) :
    padT + height - (baseline + (series.map fun item => bin.values item.key).sum) / safeMax * height ≤ s.y ∧
      0 ≤ s.height ∧ s.y + s.height ≤ padT + height - baseline / safeMax * height := by
  induction series generalizing baseline with
  | nil => cases h
  | cons item rest ih =>
    have hrest : 0 ≤ (rest.map fun item => bin.values item.key).sum := by
      apply List.sum_nonneg
      intro q hq
      obtain ⟨other, -, rfl⟩ := List.mem_map.mp hq
      exact hnonneg other.key
    rw [List.map_cons, List.sum_cons, ← add_assoc]
    rw [segmentsFrom] at h
    rcases List.mem_cons.mp h with rfl | h
    · dsimp only
      rw [height_eq hmax hheight hnonneg, max_eq_right (hnonneg item.key)]
      refine ⟨?_, mul_nonneg (div_nonneg (hnonneg item.key) hmax.le) hheight, le_of_eq (by ring)⟩
      exact sub_le_sub_left (share_le hmax hheight (le_add_of_nonneg_right hrest)) _
    · rw [max_eq_right (hnonneg item.key)] at h
      obtain ⟨hlow, hpos, hhigh⟩ := ih h
      refine ⟨hlow, hpos, hhigh.trans ?_⟩
      exact sub_le_sub_left (share_le hmax hheight (le_add_of_nonneg_right (hnonneg item.key))) _

end Vertical

/-! ## Every chart

The maximum over the bins is positive and not below any total, so that no stack leaves the plot.
-/

theorem le_foldl_max (totals : List ℚ) (q : ℚ) :
    q ≤ totals.foldl max q ∧ ∀ total ∈ totals, total ≤ totals.foldl max q := by
  induction totals generalizing q with
  | nil => exact ⟨le_rfl, by simp⟩
  | cons total rest ih =>
    obtain ⟨hfirst, hrest⟩ := ih (max q total)
    refine ⟨(le_max_left q total).trans hfirst, List.forall_mem_cons.mpr ⟨?_, hrest⟩⟩
    exact (le_max_right q total).trans hfirst

/-- The maximum is at least one, and at least each total. -/
theorem le_maxBin (bins : List Bin) : 1 ≤ maxBin bins ∧ ∀ bin ∈ bins, bin.total ≤ maxBin bins := by
  obtain ⟨hone, htotals⟩ := le_foldl_max (bins.map Bin.total) 1
  exact ⟨hone, fun bin hbin => htotals _ (List.mem_map_of_mem hbin)⟩

/-- The bars of every chart fit into its plot. -/
theorem barsFit_of_build (js : Runtime) (events : Value) (series : List Series) (range : Range)
    (binMs : Number) (data : StackedData)
    (h : buildStackedTimeSeriesData js events series range binMs = .ok data)
    (padL plotW padT plotH : ℚ) (hW : 0 ≤ plotW) (hH : 0 ≤ plotH) :
    BarsFit data.bins series range padL plotW padT plotH := by
  obtain ⟨axis, haxis, -, hstacks, -⟩ := stacks_of_build h
  obtain ⟨hone, htotals⟩ := le_maxBin data.bins
  have hpos : 0 < maxBin data.bins := zero_lt_one.trans_le hone
  have hsegments (bin : Bin) : panelSegments data.bins series range padL plotW padT plotH bin =
      segmentsFrom bin (timeBarRect bin range padL plotW) (maxBin data.bins) plotH padT 0 series := by
    rw [panelSegments, buildStackedBarSegments, max_eq_right hone, max_eq_right hH]
    rfl
  have hle {bin : Bin} (hbin : bin ∈ data.bins) : bin.start ≤ bin.stop :=
    (hstacks.tiles.lt_of_mem (List.mem_map_of_mem hbin)).le
  refine ⟨fun bin hbin s hs => ?_, ?_, fun bin hbin => ?_, fun bin hbin => ?_⟩
  · rw [hsegments] at hs
    obtain ⟨hx, hwidth⟩ := x_of_mem_segmentsFrom hs
    obtain ⟨hrect, hpositive, hends⟩ := timeBarRect_mem range padL hW (hle hbin)
    obtain ⟨hlow, hheight, hhigh⟩ := y_of_mem_segmentsFrom hpos hH (hstacks.nonneg bin hbin) hs
    rw [hx, hwidth]
    refine ⟨⟨?_, hpositive, hends.trans (timeX_mem bin.stop range padL hW).2⟩, ?_, hheight, ?_⟩
    · rw [hrect]
      exact (timeX_mem bin.start range padL hW).1
    · -- the whole stack is not higher than the plot
      have hshare : bin.total / maxBin data.bins * plotH ≤ plotH :=
        mul_le_of_le_one_left hH ((div_le_one hpos).mpr (htotals bin hbin))
      rw [zero_add, ← hstacks.total bin hbin] at hlow
      linarith
    · rwa [zero_div, zero_mul, sub_zero] at hhigh
  · have hpairwise := List.pairwise_map.mp hstacks.tiles.pairwise
    refine hpairwise.imp_of_mem fun {bin bin'} hbin hbin' hbefore s hs s' hs' => ?_
    rw [hsegments] at hs hs'
    obtain ⟨hx, hwidth⟩ := x_of_mem_segmentsFrom hs
    obtain ⟨hx', -⟩ := x_of_mem_segmentsFrom hs'
    obtain ⟨-, -, hends⟩ := timeBarRect_mem range padL hW (hle hbin)
    rw [hx, hwidth, hx', (timeBarRect_mem range padL hW (hle hbin')).1]
    exact hends.trans (timeX_mono range padL hW hbefore)
  · rw [hsegments]
    exact forall₂_segmentsFrom hpos hH (hstacks.nonneg bin hbin)
  · rw [hsegments, hstacks.total bin hbin]
    have hstand : StandFrom (padT + plotH - 0 / maxBin data.bins * plotH)
        (segmentsFrom bin (timeBarRect bin range padL plotW) (maxBin data.bins) plotH padT 0 series)
        (padT + plotH - (0 + (series.map fun item => bin.values item.key).sum) / maxBin data.bins * plotH) :=
      standFrom_segmentsFrom hpos hH (hstacks.nonneg bin hbin)
    rwa [zero_div, zero_mul, sub_zero, zero_add] at hstand

/-- The bars of three rows, the last of them with two segments, fit into their plot. -/
theorem sampleRows_barsFit : ∃ data,
    buildStackedTimeSeriesData plainRuntime (.array sampleRows) issueSeries fourHundred.range
      (.finite 120) = .ok data ∧ BarsFit data.bins issueSeries fourHundred.range 60 400 28 200 := by
  have hreturns : ∃ data, buildStackedTimeSeriesData plainRuntime (.array sampleRows) issueSeries
      ⟨.finite fourHundred.start, .finite fourHundred.stop⟩ (.finite fourHundred.binMs) = .ok data :=
    (build_rows_returns rfl rfl).mpr ⟨partitions_sampleRows, fun row hrow => sampleRows_amountsConvert hrow⟩
  obtain ⟨data, hdata⟩ := hreturns
  exact ⟨data, hdata, barsFit_of_build plainRuntime _ issueSeries fourHundred.range _ data hdata 60 400 28
    200 (by norm_num) (by norm_num)⟩

end Ghpulse.Web
